import DocPipeline.Proofs.Coordinator.Blueprint
import DocPipeline.Proofs.Coordinator.Shadow
import DocPipeline.Proofs.Text.CharSet
import DocPipeline.Proofs.Tree.Follow

namespace DocPipeline

variable {ε : Type} {alike : ε → ε → Prop} {places published : Location → Prop}

namespace Moment

-- The moment of the second run.
def hidden : Moment ε → Moment ε
  | configure raw => configure raw.hidden
  | discover session => discover session.hidden
  | start session => start session.hidden
  | parse session candidates => parse session.hidden candidates
  | edit session => edit session.hidden
  | resolve session => resolve session.hidden
  | prepare session => prepare session.hidden
  | publish session => publish session.hidden
  | complete session => complete session.hidden
  | completed session keepAlive => completed session.hidden keepAlive
  | idle session => idle session.hidden
  | wait session => wait session.hidden
  | signalled session signal => signalled session.hidden signal
  | shutDown plan => shutDown plan.hidden
  | returned result => returned result

-- The database of the second run as it is then: blanked from the resolver on until the next pass.
def seen : Moment ε → Database → Database
  | configure _ | discover _ | start _ | parse _ _ | edit _ | returned _ => id
  | _ => Database.blanked

-- The run was configured, and its files are parsed and published by what comes with the program.
def Bundled : Moment ε → Prop
  | configure _ => False
  | discover session | start session | parse session _ | edit session | resolve session
  | prepare session | publish session | complete session | completed session _ | idle session
  | wait session | signalled session _ => session.Bundled
  | shutDown _ | returned _ => True

-- Where a document is written then.
def Publishes (tree : Tree) (location : Location) : Moment ε → Prop
  | publish session => session.Publishes tree location
  | _ => False

-- No file that is parsed then is at one of the places.
def Avoids (places : Location → Prop) (tree : Tree) : Moment ε → Prop
  | parse _ candidates => candidates.Avoid places tree
  | _ => True

theorem target?_hidden (moment : Moment ε) : moment.hidden.target? = moment.target? := by
  cases moment with
  | signalled session signal => cases signal <;> rfl
  | _ => rfl

-- Two moments at which the database of the second run looks so.
def Paired (seen : Database → Database) (moment other : Moment ε) : Prop :=
  other = moment.hidden ∧ moment.Bundled ∧ moment.seen = seen

-- The situation of the second run beside that of the first. A run that has returned goes no further.
structure Beside (alike : ε → ε → Prop) (published places : Location → Prop)
    (s s' : Situation ε) : Prop where
  moment : s'.1 = s.1.hidden
  machine : s'.2.machine = s.2.machine
  bundled : s.1.Bundled
  shadows : s.1.isReturned = false → s.2.Shadows alike published places s.1.seen s'.2

end Moment

namespace Coordinator

variable {c d : Coordinator ε}

theorem machine_abort (h : d.machine = c.machine) : d.abort.machine = c.abort.machine := by
  unfold abort
  rw [h]
  cases c.machine.move .terminated with
  | ok machine => rfl
  | error _ => exact h

-- From steps in lockstep to situations beside each other.
theorem step_beside {moment moment' : Moment ε} {P Q : Coordinator ε → Coordinator ε → Prop}
    {R : Moment ε → Moment ε → Prop}
    (hm : Lockstep P (Flow.advance moment) (Flow.advance moment') R Q
      fun c d => d.machine = c.machine)
    (hP : P c d)
    (h : ∀ next next' c d, R next next' → Q c d →
      Moment.Beside alike published places (next, c) (next', d)) :
    Moment.Beside alike published places (c.step moment) (d.step moment') := by
  have hends := hm c d hP
  generalize hleft : exec (Flow.advance moment) c = left,
    hright : exec (Flow.advance moment') d = right at hends
  cases hends with
  | ok hR hQ =>
    rw [step_of_ok hleft, step_of_ok hright]
    exact h _ _ _ _ hR hQ
  | error hE =>
    rw [step_of_error hleft, step_of_error hright]
    exact ⟨rfl, machine_abort hE, trivial, nofun⟩

end Coordinator

namespace Flow

variable {moment : Moment ε}

theorem shadowed_enterTarget {seen : Database → Database} (moment : Moment ε) :
    Shadowed alike published places seen (enterTarget moment) (enterTarget moment.hidden)
      fun _ _ => True := by
  unfold enterTarget
  rw [moment.target?_hidden]
  cases moment.target? with
  | none => exact lockstep_pure trivial
  | some target => exact shadowed_enter target

-- Where no stage is entered, nothing comes before what is done at the moment.
theorem lockstep_advance_of_stay {P Q E : Coordinator ε → Coordinator ε → Prop}
    {R : Moment ε → Moment ε → Prop} (ht : moment.target? = none)
    (hm : Lockstep P (proceed moment) (proceed moment.hidden) R Q E) :
    Lockstep P (advance moment) (advance moment.hidden) R Q E := by
  intro c d h
  rw [exec_advance_of_stay ht, exec_advance_of_stay (moment.target?_hidden.trans ht)]
  exact hm c d h

end Flow

namespace Moment.Beside

variable {s s' : Situation ε} {c d : Coordinator ε} {moment : Moment ε}

theorem mono {more : Location → Prop} (h : Beside alike published places s s')
    (hmore : ∀ location, places location → more location)
    (hk : ∀ location, more location → published location) :
    Beside alike published more s s' :=
  ⟨h.moment, h.machine, h.bundled, fun hr =>
    ⟨(h.shadows hr).steady, hk, (h.shadows hr).world.mono hmore, (h.shadows hr).same⟩⟩

-- From what is done in lockstep once the stage was entered.
theorem of_proceed (seen : Database → Database)
    (h : c.Shadows alike published places moment.seen d)
    (hm : Flow.Shadowed alike published places moment.seen (Flow.proceed moment)
      (Flow.proceed moment.hidden) (Paired seen) seen) :
    Beside alike published places (c.step moment) (d.step moment.hidden) :=
  Coordinator.step_beside (lockstep_bind (Flow.shadowed_enterTarget moment) fun _ _ _ => hm) h
    fun _ _ _ _ hnext hQ => ⟨hnext.1, hQ.machine, hnext.2.1, fun _ => hnext.2.2 ▸ hQ⟩

-- More may be known of the state where no stage is entered.
theorem of_stay {P : Coordinator ε → Coordinator ε → Prop} (seen : Database → Database)
    (ht : moment.target? = none) (h : P c d)
    (hm : Lockstep P (Flow.proceed moment) (Flow.proceed moment.hidden) (Paired seen)
      (Coordinator.Shadows alike published places seen) fun c d => d.machine = c.machine) :
    Beside alike published places (c.step moment) (d.step moment.hidden) :=
  Coordinator.step_beside (Flow.lockstep_advance_of_stay ht hm) h
    fun _ _ _ _ hnext hQ => ⟨hnext.1, hQ.machine, hnext.2.1, fun _ => hnext.2.2 ▸ hQ⟩

open DocPipeline.Flow

-- When the runs are configured, no document was published.
theorem step_configure (hn : ∀ location, ¬ places location) {raw : Json} {shown : Bool}
    (hc : raw.IsCanonical) (hshown : raw.get? "includeSource" = some (.bool shown))
    (h : c.Shadows alike published places id d) :
    Beside alike published places (c.step (.configure raw)) (d.step (.configure raw.hidden)) := by
  refine of_proceed id h (lockstep_bind (shadowed_configure hn hc hshown) ?_)
  rintro session _ ⟨rfl, hbundled⟩
  exact lockstep_pure ⟨rfl, hbundled, rfl⟩

theorem step_wait (session : Session ε) (hb : session.Bundled)
    (h : c.Shadows alike published places Database.blanked d) :
    Beside alike published places (c.step (.wait session)) (d.step (.wait session.hidden)) := by
  refine of_proceed Database.blanked h (lockstep_bind shadowed_waitForSignal ?_)
  rintro _ wait rfl
  cases wait with
  | signal signal => exact lockstep_pure ⟨rfl, hb, rfl⟩
  | noHandles =>
    exact lockstep_bind (shadowed_note _ _ _ _) fun _ _ _ => lockstep_pure ⟨rfl, trivial, rfl⟩
  | pending => exact lockstep_pure ⟨rfl, hb, rfl⟩

theorem step_signalled (session : Session ε) (signal : Signal) (hb : session.Bundled)
    (h : c.Shadows alike published places Database.blanked d) :
    Beside alike published places (c.step (.signalled session signal))
      (d.step (.signalled session.hidden signal)) := by
  cases signal with
  | regenerate =>
    refine of_proceed id h (lockstep_bind (shadowed_regenerate hb) ?_)
    rintro session _ ⟨rfl, hbundled⟩
    exact lockstep_pure ⟨rfl, hbundled, rfl⟩
  | shutdown =>
    refine of_proceed Database.blanked h (lockstep_bind (shadowed_note _ _ _ _) fun _ _ _ => ?_)
    exact lockstep_pure ⟨rfl, trivial, rfl⟩

theorem step_shutDown (plan : Plan) (h : c.Shadows alike published places Database.blanked d) :
    Beside alike published places (c.step (.shutDown plan)) (d.step (.shutDown plan.hidden)) := by
  have hadvance : Lockstep (Coordinator.Shadows alike published places Database.blanked)
      (advance (.shutDown plan)) (advance (.shutDown plan.hidden))
      (fun next next' => next = .returned (.ok ()) ∧ next' = .returned (.ok ()))
      (fun c d : Coordinator ε => d.machine = c.machine) fun c d => d.machine = c.machine :=
    lockstep_bind (shadowed_enterTarget (.shutDown plan)) fun _ _ _ =>
      lockstep_bind (shadowed_shutDown plan) fun _ _ _ => lockstep_pure ⟨rfl, rfl⟩
  refine Coordinator.step_beside hadvance h fun next next' c d hnext hmachine => ?_
  obtain ⟨rfl, rfl⟩ := hnext
  exact ⟨rfl, hmachine, trivial, nofun⟩

-- The signals may change in any way that is the same in both.
theorem meddle (h : Beside alike published places s s') (signals : Signals) :
    Beside alike published places (s.1, { s.2 with world := { s.2.world with signals } })
      (s'.1, { s'.2 with world := { s'.2.world with signals } }) :=
  ⟨h.moment, h.machine, h.bundled, fun hr => (h.shadows hr).with_world (h.shadows hr).known
    ((h.shadows hr).world.with_signals signals)⟩

-- One step of both runs.
theorem step (h : Beside alike published places s s') (hr : s.1.isReturned = false)
    (ha : s.1.Avoids places s.2.world.tree)
    (hk : ∀ location, s.1.Publishes s.2.world.tree location → published location) :
    Beside alike published (fun location => places location ∨ s.1.Publishes s.2.world.tree location)
      (s.2.step s.1) (s'.2.step s'.1) := by
  obtain ⟨moment, c⟩ := s
  obtain ⟨moment', d⟩ := s'
  obtain ⟨rfl, hmachine, hb, hshadows⟩ := h
  have hcd : c.Shadows alike published places moment.seen d := hshadows hr
  have hgrow : ∀ {s s' : Situation ε}, Beside alike published places s s' →
      Beside alike published
        (fun location => places location ∨ moment.Publishes c.world.tree location) s s' :=
    fun hbeside => hbeside.mono (fun _ => Or.inl)
      fun location hlocation => hlocation.elim (hcd.known location) (hk location)
  dsimp only at hr ha hk hb ⊢
  cases moment with
  | configure raw => exact absurd hb id
  | discover session =>
    refine hgrow (of_proceed id hcd (lockstep_bind (shadowed_discoverFirst hb) ?_))
    rintro session _ ⟨rfl, hbundled⟩
    exact lockstep_pure ⟨rfl, hbundled, rfl⟩
  | start session =>
    refine hgrow (of_proceed id hcd (lockstep_bind (shadowed_beginPass hb) ?_))
    rintro ⟨session, candidates⟩ _ ⟨rfl, hbundled⟩
    exact lockstep_pure ⟨rfl, hbundled, rfl⟩
  | parse session candidates =>
    refine hgrow (of_stay id rfl ⟨hcd, rfl⟩ (lockstep_bind (shadowed_parse hb ha) ?_))
    rintro session _ ⟨rfl, hbundled⟩
    exact lockstep_pure ⟨rfl, hbundled, rfl⟩
  | edit session =>
    refine hgrow (of_proceed Database.blanked hcd
      (lockstep_bind (shadowed_editRecords session.plan) fun _ _ _ => ?_))
    exact lockstep_pure ⟨rfl, hb, rfl⟩
  | resolve session =>
    refine hgrow (of_proceed Database.blanked hcd
      (lockstep_bind (shadowed_resolve hb) fun _ _ _ => ?_))
    exact lockstep_pure ⟨rfl, hb, rfl⟩
  | prepare session =>
    refine hgrow (of_proceed Database.blanked hcd
      (lockstep_bind (shadowed_preparePublishing session.plan) fun _ _ _ => ?_))
    exact lockstep_pure ⟨rfl, hb, rfl⟩
  | publish session =>
    refine of_stay Database.blanked rfl ⟨hcd, rfl⟩ (lockstep_bind (shadowed_publish hb hk) ?_)
    rintro session _ ⟨rfl, hbundled⟩
    exact lockstep_pure ⟨rfl, hbundled, rfl⟩
  | complete session =>
    refine hgrow (of_proceed Database.blanked hcd (lockstep_bind (shadowed_complete session) ?_))
    rintro _ keepAlive rfl
    exact lockstep_pure ⟨rfl, hb, rfl⟩
  | completed session keepAlive =>
    refine hgrow (of_proceed Database.blanked hcd
      (lockstep_bind (shadowed_work (Work.shadowed_count _)) fun _ _ _ => ?_))
    cases keepAlive with
    | true => exact lockstep_pure ⟨rfl, hb, rfl⟩
    | false => exact lockstep_pure ⟨rfl, trivial, rfl⟩
  | idle session =>
    refine hgrow (of_proceed Database.blanked hcd
      (lockstep_bind (shadowed_note _ _ _ _) fun _ _ _ => ?_))
    exact lockstep_pure ⟨rfl, hb, rfl⟩
  | wait session => exact hgrow (step_wait session hb hcd)
  | signalled session signal => exact hgrow (step_signalled session signal hb hcd)
  | shutDown plan => exact hgrow (step_shutDown plan hcd)
  | returned result => cases hr

end Moment.Beside

-- Where documents were written on a trail.
def Published (trail : List (Situation ε)) (location : Location) : Prop :=
  ∃ s ∈ trail, s.1.Publishes s.2.world.tree location

-- No file is parsed that is where a document was written before.
def SparesPublished (trail : List (Situation ε)) : Prop :=
  ∀ before s after, trail = before ++ s :: after → s.1.Avoids (Published before) s.2.world.tree

-- Two runs from one coordinator. Whoever holds a handle does the same to the signals of both. The
-- trail is that of the first.
inductive Abreast (raw raw' : Json) (c₀ : Coordinator ε) :
    List (Situation ε) → Situation ε → Situation ε → Prop where
  | begin : Abreast raw raw' c₀ [] (.configure raw, c₀) (.configure raw', c₀)
  | step {trail : List (Situation ε)} {s s' : Situation ε} (h : Abreast raw raw' c₀ trail s s')
      (hm : s.1.isReturned = false) :
      Abreast raw raw' c₀ (trail ++ [s]) (s.2.step s.1) (s'.2.step s'.1)
  | meddle {trail : List (Situation ε)} {s s' : Situation ε} (h : Abreast raw raw' c₀ trail s s')
      (signals : Signals) :
      Abreast raw raw' c₀ trail (s.1, { s.2 with world := { s.2.world with signals } })
        (s'.1, { s'.2 with world := { s'.2.world with signals } })

theorem published_concat {trail : List (Situation ε)} {s : Situation ε} {location : Location} :
    Published (trail ++ [s]) location ↔
      Published trail location ∨ s.1.Publishes s.2.world.tree location := by
  simp only [Published, List.mem_append, List.mem_singleton, or_and_right, exists_or,
    exists_eq_left]

theorem SparesPublished.of_concat {trail : List (Situation ε)} {s : Situation ε}
    (h : SparesPublished (trail ++ [s])) :
    SparesPublished trail ∧ s.1.Avoids (Published trail) s.2.world.tree := by
  refine ⟨fun before s' after he => h before s' (after ++ [s]) ?_, h trail s [] rfl⟩
  rw [he, List.append_assoc, List.cons_append]

-- Nothing was published as long as no moment is one of publishing.
theorem SparesPublished.of_unpublished {trail : List (Situation ε)}
    (h : ∀ s ∈ trail, s.1.isPublish = false) : SparesPublished trail := by
  intro before s after he
  have hnone : ∀ location, ¬ Published before location := by
    rintro location ⟨⟨moment, c⟩, hs, hpublishes⟩
    have hmoment := h (moment, c) (he ▸ List.mem_append_left _ hs)
    cases moment with
    | publish session => cases hmoment
    | _ => exact hpublishes
  cases hs : s.1 with
  | parse session candidates => exact fun _ _ location _ _ => hnone location
  | _ => trivial

namespace Abreast

variable {raw raw' : Json} {c₀ : Coordinator ε} {trail : List (Situation ε)} {s s' : Situation ε}

-- Each of the two is a course of its own.
theorem courses (h : Abreast raw raw' c₀ trail s s') :
    Course raw c₀ trail s.1 s.2 ∧ ∃ trail', Course raw' c₀ trail' s'.1 s'.2 := by
  induction h with
  | begin => exact ⟨.begin, [], .begin⟩
  | @step trail s s' _ hm ih =>
    obtain ⟨hcourse, trail', hcourse'⟩ := ih
    refine ⟨hcourse.step hm, ?_⟩
    obtain ⟨moment', d⟩ := s'
    by_cases hm' : moment'.isReturned = false
    · exact ⟨_, hcourse'.step hm'⟩
    · cases moment' with
      | returned result => exact ⟨_, hcourse'⟩
      | _ => exact absurd rfl hm'
  | meddle _ signals ih =>
    obtain ⟨hcourse, trail', hcourse'⟩ := ih
    exact ⟨hcourse.meddle signals, _, hcourse'.meddle signals⟩

-- The steps ahead of the first run, with the same number of steps of the second.
theorem ahead (steps : Nat) (h : Abreast raw raw' c₀ trail s s')
    (hm : (s.2.after steps s.1).1.isReturned = false) :
    Abreast raw raw' c₀ (trail ++ s.2.ahead steps s.1) (s.2.after steps s.1)
      (s'.2.after steps s'.1) := by
  induction steps generalizing trail s s' with
  | zero =>
    rw [Coordinator.ahead_zero, Coordinator.after_zero, Coordinator.after_zero, List.append_nil]
    exact h
  | succ steps ih =>
    obtain ⟨moment, c⟩ := s
    by_cases hr : moment.isReturned = false
    · rw [Coordinator.after_succ] at hm
      have hnext := ih (h.step hr) hm
      rw [List.append_assoc] at hnext
      rw [Coordinator.ahead_succ hr, Coordinator.after_succ, Coordinator.after_succ]
      exact hnext
    · cases moment with
      | returned result => cases hm
      | _ => exact absurd rfl hr

section Known

variable {shown : Bool} (hc : raw.IsCanonical)
  (hshown : raw.get? "includeSource" = some (.bool shown))
include hc hshown

-- Either both runs are still to be configured, or they are beside each other.
theorem known (halike : alike c₀.world.host c₀.world.host) (hs : c₀.Steady alike published)
    (h : Abreast raw raw.hidden c₀ trail s s')
    (hp : ∀ location, Published trail location → published location)
    (ha : SparesPublished trail) :
    trail = [] ∧ s.1 = .configure raw ∧ s'.1 = .configure raw.hidden ∧
      s.2.Shadows alike published (Published trail) id s'.2 ∨
    Moment.Beside alike published (Published trail) s s' := by
  induction h with
  | begin =>
    refine .inl ⟨rfl, rfl, rfl, hs, hp, ⟨rfl, rfl, rfl, rfl, halike⟩, rfl⟩
  | @step trail s s' _ hm ih =>
    obtain ⟨hspares, havoids⟩ := ha.of_concat
    have hbefore : ∀ location, Published trail location → Published (trail ++ [s]) location :=
      fun location hlocation => published_concat.mpr (.inl hlocation)
    obtain ⟨rfl, hmoment, hmoment', hshadows⟩ | hbeside :=
      ih (fun location hlocation => hp location (hbefore location hlocation)) hspares
    · obtain ⟨moment, c⟩ := s
      obtain ⟨moment', d⟩ := s'
      obtain rfl : moment = .configure raw := hmoment
      obtain rfl : moment' = .configure raw.hidden := hmoment'
      have hnone : ∀ location, ¬ Published ([] : List (Situation ε)) location := by
        rintro location ⟨s, hs, -⟩
        cases hs
      exact .inr ((Moment.Beside.step_configure hnone hc hshown hshadows).mono hbefore hp)
    · refine .inr ((hbeside.step hm havoids fun location hlocation => ?_).mono ?_ hp)
      · exact hp location (published_concat.mpr (.inr hlocation))
      · exact fun location hlocation => published_concat.mpr hlocation
  | meddle _ signals ih =>
    obtain ⟨htrail, hmoment, hmoment', hshadows⟩ | hbeside := ih hp ha
    · exact .inl ⟨htrail, hmoment, hmoment', hshadows.with_world hshadows.known
        (hshadows.world.with_signals signals)⟩
    · exact .inr (hbeside.meddle signals)

end Known

-- The same project and configuration, the same collaborators, and the second run is not to include
-- source text. If no pass parses what an earlier one published, both runs go through the same moments
-- and stages, and whenever the publisher is called, only the text of files tells the databases apart.
-- It is blanked in the second run, also where a plugin put it there.
theorem published_without_source {shown : Bool} (hc : raw.IsCanonical)
    (hshown : raw.get? "includeSource" = some (.bool shown))
    (halike : alike c₀.world.host c₀.world.host) (hs : c₀.Steady alike (Published trail))
    (h : Abreast raw raw.hidden c₀ trail s s') (ha : SparesPublished trail) :
    s'.1 = s.1.hidden ∧ s'.2.machine = s.2.machine ∧
      ∀ session, s.1 = .publish session →
        s'.1 = .publish { session with plan := { session.plan with includeSource := false } } ∧
          let db := s.2.world.store.db
          let other := s'.2.world.store.db
          other.records = (db.records.map fun record =>
            if record.kind = .file ∨ record.kind = .testFile then
              { record with content := record.content.map fun _ => "" }
            else record) ∧
          other.asts = db.asts ∧ other.index = db.index ∧ other.generation = db.generation ∧
          other.coverage = db.coverage ∧
          ∀ record ∈ other.records, record.kind = .file ∨ record.kind = .testFile →
            record.content = none ∨ record.content = some "" := by
  obtain ⟨-, hmoment, hmoment', hshadows⟩ | hbeside :=
    h.known hc hshown halike hs (fun _ => id) ha
  · refine ⟨by rw [hmoment, hmoment']; rfl, hshadows.machine, fun session hsession => ?_⟩
    cases hmoment.symm.trans hsession
  · refine ⟨hbeside.moment, hbeside.machine, fun session hsession => ?_⟩
    have hother : s'.1 = .publish session.hidden := by rw [hbeside.moment, hsession]; rfl
    have hshadows := hbeside.shadows (by rw [hsession]; rfl)
    rw [hsession] at hshadows
    have hdb : s'.2.world.store.db = s.2.world.store.db.blanked := hshadows.world.db
    have hrecords : ∀ records : List Record, records.map Record.blankSource = records.map _ :=
      fun records => List.map_congr_left fun record _ => record.blankSource_eq
    dsimp only
    rw [hdb]
    exact ⟨hother, hrecords _, rfl, rfl, rfl, Database.coverage_blanked _,
      fun record hrecord hfile => Database.content_of_mem_blanked hrecord hfile⟩

section Overwritten

-- A plugin that keeps the run alive, and asks for a second pass.
def lastingPlugin : Plugin Nat :=
  .custom "lasting" fun {h} occasion =>
    match h, occasion with
    | .complete, .complete _ handle _ =>
      .look fun passes _ => .remember (passes + 1) (.edit true
        (if passes = 0 then .send handle .regenerate fun _ => .done () else .done ()))
    | _, _ => .done ()

theorem lastingPlugin_steady (published : Location → Prop) :
    lastingPlugin.Steady Eq published := by
  intro h occasion payload places _ world shadow hw
  cases occasion with
  | complete plan handle reparser =>
    have hremembered : World.Shadows Eq places Database.blanked
        { world with host := world.host + 1 } { shadow with host := world.host + 1 } :=
      ⟨hw.tree, hw.db, hw.changes, hw.signals, rfl⟩
    have hhost : shadow.host = world.host := hw.host.symm
    simp only [Plugin.respond, lastingPlugin, Occasion.hidden, Conduct.run, hhost]
    split
    · simp only [Conduct.run, World.send, hw.signals]
      cases world.signals.send? handle .regenerate with
      | none => exact ⟨rfl, fun _ _ => rfl, fun _ _ => hremembered.with_signals world.signals⟩
      | some signals => exact ⟨rfl, fun _ _ => rfl, fun _ _ => hremembered.with_signals signals⟩
    · exact ⟨rfl, fun _ _ => rfl, fun _ _ => hremembered⟩
  | _ => exact ⟨rfl, fun _ _ => rfl, fun _ _ => hw⟩

-- A package whose only test file is where the document is written.
def overwritten (runtime : Runtime) : Coordinator Nat where
  dir := ⟨"/p"⟩
  registry := { (Registry.builtin : Registry Nat) with
    runtimes := .ofList [(FileRuntime.name, fun _ => .done runtime)] }
  waiting := [lastingPlugin]
  world :=
    { tree := ⟨[(["p"], .directory), (["p", "d"], .directory),
        (["p", "d", "f"], .file "it('b')".toUTF8)]⟩
      log := ⟨none, []⟩
      host := 0 }

def overwrittenConfig : Json :=
  .object [("destination", .string "d"), ("includeSource", .bool true),
    ("includes", .strings [""]),
    ("publisherOptions", .object [("fileName", .string "f"), ("pretty", .bool false)]),
    ("runtime", .string FileRuntime.name), ("sourceFiles", .strings []),
    ("test", .object [("includes", .strings [""]), ("sourceFiles", .strings ["d/f"]),
      ("type", .string "m")])]

-- The document of the first pass, with the text of the test file in it as given.
def overwriting (text : String) : List Char :=
  (JsonPublisher.document default {} [⟨"Doc Data", "f"⟩]
    { records :=
        [{ kind := .testFile, content := some text
           fields := .ofList [("name", .string "d/f"), ("testType", .string "m")] },
          { kind := .entity "test"
            fields := .ofList [("name", .string "b"), ("memberof", .string "d/f")] }]
      asts := [⟨"test/d/f", .object [("testType", .string "m"), ("type", .string "Program")]⟩]
      index := .ofList [("d/f", [0]), ("b", [1])] }).compact

-- `TestBlock.scan`, where what stands in front of a block is looked at last.
def scanLate (inWord : Option Char → Bool) (skip : Nat) (before : Option Char) :
    List Char → List TestBlock
  | [] => []
  | c :: rest =>
    match skip, TestBlock.at? (c :: rest) with
    | 0, some (block, after) =>
      if inWord before then scanLate inWord 0 (some c) rest
      else block :: scanLate inWord (rest.length - after.length) (some c) rest
    | _, _ => scanLate inWord (skip - 1) (some c) rest

theorem scanLate_eq {inWord : Option Char → Bool} (h : inWord = Pattern.isWord false) (skip : Nat)
    (before : Option Char) (text : List Char) : scanLate inWord skip before text =
      TestBlock.scan skip before text := by
  subst h
  induction text generalizing skip before with
  | nil => rfl
  | cons c rest ih =>
    cases skip with
    | succ skip =>
      rw [TestBlock.scan, if_neg fun hscan => Nat.succ_ne_zero skip hscan.1]
      exact ih _ _
    | zero =>
      rw [TestBlock.scan]
      cases hblock : TestBlock.at? (c :: rest) with
      | none =>
        have hlate : scanLate (Pattern.isWord false) 0 before (c :: rest) =
            scanLate (Pattern.isWord false) 0 (some c) rest := by
          simp only [scanLate, hblock]
        rw [hlate, ih, ite_self]
      | some found =>
        obtain ⟨block, after⟩ := found
        simp only [scanLate, hblock, ih]
        cases Pattern.isWord false before <;> rfl

-- A quote is no part of a word.
def inWord (before : Option Char) : Bool := before != some '"' && Pattern.isWord false before

theorem inWord_eq : inWord = Pattern.isWord false := by
  funext before
  have hquote : Pattern.isWord false (some '"') = false := by
    rw [Pattern.isWord, Pattern.isWordChar_of_ascii (by decide), Pattern.isWordChar, if_pos rfl,
      Bool.eq_false_iff, ne_eq, Pattern.contains_asciiWord]
    decide
  by_cases h : before = some '"'
  · rw [h, hquote]
    rfl
  · rw [inWord, bne_iff_ne.mpr h, Bool.true_and]

-- The text of a file, if it is one of these.
def knownText? (texts : List (List Char)) (tree : Tree) (file : Path) : Option (List Char) :=
  match tree.find file with
  | .ok (_, .file bytes) =>
    texts.find? fun text => bytes.data.toList = text.flatMap String.utf8EncodeChar
  | _ => none

theorem readText_of_known {texts : List (List Char)} {tree : Tree} {file : Path}
    {text : List Char} (h : knownText? texts tree file = some text) :
    tree.readText file = .ok (String.ofList text) := by
  unfold knownText? at h
  split at h
  next location bytes hfind =>
    have hbytes : bytes = (String.ofList text).toUTF8 := by
      have hdata : bytes.data.toList = text.flatMap String.utf8EncodeChar := by
        simpa only [decide_eq_true_eq] using List.find?_some h
      rw [String.toUTF8_eq_toByteArray, String.toByteArray_ofList, List.utf8Encode, ByteArray.ext_iff,
        ← Array.toList_inj, hdata, List.toList_data_toByteArray]
    exact Tree.readText_of_find (hbytes ▸ hfind)
  next => cases h

-- `FileRuntime.parseTest`, where a known text is not decoded.
def parseKnownTest (texts : List (List Char)) (tree : Tree) (type : String) (dir file : Path) :
    ParseResult :=
  match knownText? texts tree file with
  | none => FileRuntime.parseTest tree type dir file
  | some text =>
    let owner := Path.relativeTo dir file
    let record : Record :=
      { kind := .testFile, content := some (String.ofList text)
        fields := .ofList [("name", .string owner), ("testType", .string type)] }
    let blocks := scanLate inWord 0 none text
    .ok (some ⟨record :: blocks.map (TestBlock.toRecord owner),
      some (.object [("testType", .string type), ("type", .string "Program")])⟩)

theorem parseKnownTest_eq (texts : List (List Char)) : parseKnownTest texts = FileRuntime.parseTest := by
  funext tree type dir file
  unfold parseKnownTest
  split
  next => rfl
  next text htext =>
    have hcode : TestBlock.ofCode (String.ofList text) = TestBlock.scan 0 none text := by
      rw [TestBlock.ofCode, String.toList_ofList]
    simp only [scanLate_eq inWord_eq, ← hcode]
    simp only [FileRuntime.parseTest, readSource, readText_of_known htext]
    rfl

-- The runtime that comes with the program, which reads the texts of the test file faster.
def overwritingRuntime : Runtime :=
  { fileRuntime with parser := { fileRuntime.parser with
      test := parseKnownTest
        ["it('b')".toList, overwriting "it('b')", overwriting ""] } }

theorem overwritingRuntime_eq : overwritingRuntime = fileRuntime := by
  rw [overwritingRuntime, parseKnownTest_eq]
  rfl

-- The kinds of the records that are about to be published.
def kindsAt (s : Situation Nat) : Option (List DocKind) :=
  match s.1 with
  | .publish _ => some (s.2.world.store.db.records.map (·.kind))
  | _ => none

theorem isCanonical_overwrittenConfig : overwrittenConfig.IsCanonical := by
  have hcanonical : overwrittenConfig.canonical = overwrittenConfig := by rfl
  exact hcanonical ▸ Json.isCanonical_canonical _

theorem steady_overwritten (published : Location → Prop) :
    (overwritten fileRuntime).Steady Eq published :=
  Coordinator.steady_builtin rfl
    (List.forall_mem_singleton.mpr (lastingPlugin_steady published)) rfl rfl

-- Where some steps of the first run lead to publishing, they are taken by both.
theorem ahead_of_kindsAt {raw : Json} (raw' : Json) {c₀ : Coordinator Nat} {steps : Nat}
    {kinds : List DocKind} (h : kindsAt (c₀.after steps (.configure raw)) = some kinds) :
    Abreast raw raw' c₀ (c₀.ahead steps (.configure raw)) (c₀.after steps (.configure raw))
      (c₀.after steps (.configure raw')) := by
  refine Abreast.begin.ahead steps ?_
  dsimp only
  cases hmoment : (c₀.after steps (.configure raw)).1 with
  | returned result =>
    rw [kindsAt, hmoment] at h
    cases h
  | _ => rfl

theorem exists_publish_of_kindsAt {s : Situation Nat} {kinds : List DocKind}
    (h : kindsAt s = some kinds) : ∃ session, s.1 = .publish session ∧
      s.2.world.store.db.records.map (·.kind) = kinds := by
  obtain ⟨moment, c⟩ := s
  cases moment with
  | publish session => exact ⟨session, rfl, Option.some.inj h⟩
  | _ => cases h

theorem kindsAt_first :
    kindsAt ((overwritten fileRuntime).after 7 (.configure overwrittenConfig)) =
      some [.testFile, .entity "test"] := by
  rw [← overwritingRuntime_eq]
  decide +kernel

theorem unpublished_first :
    ((overwritten fileRuntime).ahead 7 (.configure overwrittenConfig)).all
      (fun s => !s.1.isPublish) = true := by
  rw [← overwritingRuntime_eq]
  decide +kernel

theorem kindsAt_second :
    kindsAt ((overwritten fileRuntime).after 18 (.configure overwrittenConfig)) =
      some [.testFile, .entity "test"] := by
  rw [← overwritingRuntime_eq]
  decide +kernel

theorem kindsAt_second_hidden :
    kindsAt ((overwritten fileRuntime).after 18 (.configure overwrittenConfig.hidden)) =
      some [.testFile] := by
  rw [← overwritingRuntime_eq]
  decide +kernel

-- Seven steps lead to publishing, in the first pass of the run.
theorem published_without_source_overwritten : ∃ trail s s',
    overwrittenConfig.IsCanonical ∧
      overwrittenConfig.get? "includeSource" = some (.bool true) ∧
      (overwritten fileRuntime).Steady Eq (Published trail) ∧
      Abreast overwrittenConfig overwrittenConfig.hidden (overwritten fileRuntime) trail s s' ∧
      SparesPublished trail ∧ s'.2.machine = s.2.machine ∧ ∃ session, s.1 = .publish session ∧
        s.2.world.store.db.records.map (·.kind) = [.testFile, .entity "test"] ∧
        ∀ record ∈ s'.2.world.store.db.records,
          record.kind = .file ∨ record.kind = .testFile →
            record.content = none ∨ record.content = some "" := by
  obtain ⟨session, hsession, hrecords⟩ := exists_publish_of_kindsAt kindsAt_first
  have habreast := ahead_of_kindsAt overwrittenConfig.hidden kindsAt_first
  have hspares : SparesPublished
      ((overwritten fileRuntime).ahead 7 (.configure overwrittenConfig)) :=
    .of_unpublished fun s hs => by simpa using List.all_eq_true.mp unpublished_first s hs
  generalize (overwritten fileRuntime).ahead 7 (.configure overwrittenConfig) = trail
    at habreast hspares
  generalize (overwritten fileRuntime).after 7 (.configure overwrittenConfig) = s
    at habreast hsession hrecords
  have hhost : (overwritten fileRuntime).world.host = (overwritten fileRuntime).world.host := rfl
  obtain ⟨-, hmachine, hpublished⟩ := published_without_source isCanonical_overwrittenConfig rfl
    hhost (steady_overwritten _) habreast hspares
  obtain ⟨-, -, -, -, -, -, hblank⟩ := hpublished session hsession
  exact ⟨trail, s, _, isCanonical_overwrittenConfig, rfl, steady_overwritten _, habreast, hspares,
    hmachine, session, hsession, hrecords, hblank⟩

-- The second pass parses the document that the first pass put in the place of the test file. In the
-- second run the document has lost the text of that file, and with it the block that is found there.
theorem overwritten_reread : ∃ trail s s',
    overwrittenConfig.IsCanonical ∧
      overwrittenConfig.get? "includeSource" = some (.bool true) ∧
      (overwritten fileRuntime).Steady Eq (fun _ => True) ∧
      Abreast overwrittenConfig overwrittenConfig.hidden (overwritten fileRuntime) trail s s' ∧
      ∃ session session', s.1 = .publish session ∧ s'.1 = .publish session' ∧
        s.2.world.store.db.records.map (·.kind) = [.testFile, .entity "test"] ∧
        s'.2.world.store.db.records.map (·.kind) = [.testFile] := by
  obtain ⟨session, hsession, hrecords⟩ := exists_publish_of_kindsAt kindsAt_second
  obtain ⟨session', hsession', hrecords'⟩ := exists_publish_of_kindsAt kindsAt_second_hidden
  have habreast := ahead_of_kindsAt overwrittenConfig.hidden kindsAt_second
  exact ⟨_, _, _, isCanonical_overwrittenConfig, rfl, steady_overwritten _, habreast, session,
    session', hsession, hsession', hrecords, hrecords'⟩

end Overwritten

end Abreast

end DocPipeline
