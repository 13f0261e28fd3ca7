import DocPipeline.Coordinator.Run
import DocPipeline.Proofs.Effect

namespace DocPipeline

-- A moment, with the coordinator as it is then.
abbrev Situation (ε : Type) := Moment ε × Coordinator ε

-- The trail holds the situations from which a step was taken, the first one first.
inductive Course {ε : Type} (raw : Json) (c₀ : Coordinator ε) :
    List (Situation ε) → Moment ε → Coordinator ε → Prop where
  | begin : Course raw c₀ [] (.configure raw) c₀
  | step {trail : List (Situation ε)} {moment : Moment ε} {c : Coordinator ε}
      (h : Course raw c₀ trail moment c) (hm : moment.isReturned = false) :
      Course raw c₀ (trail ++ [(moment, c)]) (c.step moment).1 (c.step moment).2
  | meddle {trail : List (Situation ε)} {moment : Moment ε} {c : Coordinator ε}
      (h : Course raw c₀ trail moment c) (signals : Signals) :
      Course raw c₀ trail moment { c with world := { c.world with signals } }

namespace Coordinator

variable {ε : Type}

theorem step_of_ok {moment next : Moment ε} {c c' : Coordinator ε}
    (h : exec (Flow.advance moment) c = (.ok next, c')) : c.step moment = (next, c') := by
  have hr : (ExceptT.run (Flow.advance moment)).run c = (.ok next, c') := h
  rw [step, hr]

theorem step_of_error {moment : Moment ε} {failure : Failure} {c c' : Coordinator ε}
    (h : exec (Flow.advance moment) c = (.error failure, c')) :
    c.step moment = (.returned (.error failure), c'.abort) := by
  have hr : (ExceptT.run (Flow.advance moment)).run c = (.error failure, c') := h
  rw [step, hr]

-- Where the run stands after so many steps.
def after : Nat → Moment ε → Coordinator ε → Situation ε
  | _, .returned result, c => (.returned result, c)
  | 0, moment, c => (moment, c)
  | steps + 1, moment, c => after steps (c.step moment).1 (c.step moment).2

-- The situations from which these steps are taken.
def ahead : Nat → Moment ε → Coordinator ε → List (Situation ε)
  | _, .returned _, _ => []
  | 0, _, _ => []
  | steps + 1, moment, c => (moment, c) :: ahead steps (c.step moment).1 (c.step moment).2

theorem after_zero (moment : Moment ε) (c : Coordinator ε) : c.after 0 moment = (moment, c) := by
  cases moment <;> rfl

theorem ahead_zero (moment : Moment ε) (c : Coordinator ε) : c.ahead 0 moment = [] := by
  cases moment <;> rfl

-- A run that has returned stays where it is.
theorem after_succ (steps : Nat) (moment : Moment ε) (c : Coordinator ε) :
    c.after (steps + 1) moment = (c.step moment).2.after steps (c.step moment).1 := by
  cases moment with
  | returned result => cases steps <;> rfl
  | _ => rfl

theorem ahead_succ {moment : Moment ε} (hm : moment.isReturned = false) (steps : Nat)
    (c : Coordinator ε) : c.ahead (steps + 1) moment =
      (moment, c) :: (c.step moment).2.ahead steps (c.step moment).1 := by
  cases moment with
  | returned result => cases hm
  | _ => rfl

theorem course_ahead {raw : Json} {c₀ : Coordinator ε} (steps : Nat) {moment : Moment ε}
    {c : Coordinator ε} {trail : List (Situation ε)} (h : Course raw c₀ trail moment c) :
    Course raw c₀ (trail ++ c.ahead steps moment) (c.after steps moment).1
      (c.after steps moment).2 := by
  induction steps generalizing trail moment c with
  | zero =>
    rw [ahead_zero, after_zero, List.append_nil]
    exact h
  | succ steps ih =>
    by_cases hm : moment.isReturned = false
    · have hstep := ih (h.step hm)
      rw [List.append_assoc] at hstep
      rw [ahead_succ hm, after_succ]
      exact hstep
    · cases moment with
      | returned result => simpa only [ahead, after, List.append_nil] using h
      | _ => exact absurd rfl hm

theorem follow_returned (steps : Nat) (result : Except Failure Unit) (c : Coordinator ε) :
    c.follow steps (.returned result) = some (result, c) := by
  cases steps <;> rfl

theorem after_of_follow {steps : Nat} {moment : Moment ε} {c c' : Coordinator ε}
    {result : Except Failure Unit} (h : c.follow steps moment = some (result, c')) :
    c.after steps moment = (.returned result, c') := by
  induction steps generalizing moment c with
  | zero =>
    cases moment <;> simp only [follow, reduceCtorEq, Option.some.injEq, Prod.mk.injEq] at h
    obtain ⟨rfl, rfl⟩ := h
    rfl
  | succ steps ih =>
    cases moment with
    | returned r =>
      simp only [follow, Option.some.injEq, Prod.mk.injEq] at h
      obtain ⟨rfl, rfl⟩ := h
      rfl
    | _ => exact ih h

-- Every answer of a run is the end of a course.
theorem course_of_generate {raw : Json} {c₀ c : Coordinator ε} {bound : Nat}
    {result : Except Failure Unit} (h : c₀.generate bound raw = some (result, c)) :
    ∃ trail, Course raw c₀ trail (.returned result) c := by
  have hbegin : Course raw c₀ [] (.configure raw) c₀ := .begin
  have hcourse := course_ahead (passSteps * (bound + 1)) hbegin
  rw [after_of_follow h] at hcourse
  exact ⟨_, hcourse⟩

end Coordinator

namespace Flow

variable {ε : Type}

-- The coordinator after it entered a stage.
def entered (machine : Machine) (target : Stage) (c : Coordinator ε) : Coordinator ε :=
  { c with machine }.note (Machine.stepEvent ⟨c.stage, target⟩)

theorem exec_advance_of_stay {moment : Moment ε} (h : moment.target? = none)
    (c : Coordinator ε) : exec (advance moment) c = exec (proceed moment) c := by
  simp only [advance, enterTarget, h]
  rfl

theorem exec_enter {target : Stage} {machine : Machine} {c : Coordinator ε}
    (hm : c.machine.move target = .ok machine) :
    exec (enter target) c = (.ok (), entered machine target c) := by
  simp only [enter, exec_bind, exec_get, hm]
  rfl

theorem exec_advance_of_move {moment : Moment ε} {target : Stage} {machine : Machine}
    {c : Coordinator ε} (h : moment.target? = some target)
    (hm : c.machine.move target = .ok machine) :
    exec (advance moment) c = exec (proceed moment) (entered machine target c) := by
  simp only [advance, enterTarget, h]
  rw [exec_bind_of_ok (exec_enter hm)]

-- Where a moment is followed by another, its stage was entered before anything was done.
theorem advance_ok {moment next : Moment ε} {c c' : Coordinator ε}
    (h : exec (advance moment) c = (.ok next, c')) :
    ∃ machine log, exec (proceed moment) { c with machine, world := { c.world with log } } =
      (.ok next, c') := by
  cases ht : moment.target? with
  | none =>
    rw [exec_advance_of_stay ht] at h
    exact ⟨c.machine, c.world.log, h⟩
  | some target =>
    cases hm : c.machine.move target with
    | ok machine =>
      rw [exec_advance_of_move ht hm] at h
      exact ⟨_, _, h⟩
    | error failure =>
      simp only [advance, enterTarget, ht, enter, exec_bind, exec_get, hm] at h
      cases h

end Flow

section Twice

-- A plugin that supplies a fragment, turns the records round, and keeps the run alive for a second
-- pass.
def twicePlugin : Plugin Nat :=
  .custom "twice" fun {h} occasion =>
    match h, occasion with
    | .handleVirtual, .handleVirtual _ =>
      .look fun _ fragments => .edit (fragments ++ [⟨"globals", "x"⟩]) (.done ())
    | .handleDocData, .handleDocData _ => .look fun _ records => .edit records.reverse (.done ())
    | .complete, .complete _ handle _ =>
      .look fun passes _ => .remember (passes + 1) (.edit true
        (if passes = 0 then .send handle .regenerate fun _ => .done () else .done ()))
    | _, _ => .done ()

def twiceParser : Parser where
  file tree _ file _ :=
    .ok (some ⟨[{ kind := if tree.isFile file then .file else .entity "missing" }], some .null⟩)
  code _ code :=
    if code = "" then .error (.text "no code") else .ok (some ⟨[{ kind := .entity "global" }], none⟩)
  test _ _ _ _ := .ok none

def twice : Coordinator Nat where
  dir := ⟨"/p"⟩
  registry :=
    { runtimes := .ofList [("r", fun _ => .done ⟨"r", twiceParser, indexResolver⟩)]
      publishers := .ofList [("p", fun _ => .done fun _ _ =>
        .look fun _ state => .edit (state.addMenuLink "docs" "index.html") (.done ()))] }
  waiting := [twicePlugin]
  world :=
    { tree := ⟨[(["p"], .directory), (["p", "a.js"], .file .empty)]⟩, log := ⟨none, []⟩, host := 0 }

def twiceConfig : Json :=
  .object [("publisher", .string "p"), ("runtime", .string "r"),
    ("sourceFiles", .strings ["a.js", "b.js"])]

theorem Dict.eq_of_get?_singleton {α : Type} {name key : String} {value found : α}
    (h : (Dict.ofList [(name, value)]).get? key = some found) : found = value := by
  simp only [Dict.ofList, List.foldl_cons, List.foldl_nil, Dict.insert, Dict.empty,
    Dict.insertEntry, Dict.get?, List.find?_cons] at h
  split at h
  · exact (Option.some.inj h).symm
  · cases h

theorem twicePlugin_store {h : Hook} (occasion : Occasion h) (payload : h.Payload)
    (world : World Nat) :
    (twicePlugin.respond occasion payload world).2.world.store = world.store := by
  cases occasion with
  | complete plan handle reparser =>
    simp only [Plugin.respond, twicePlugin, Conduct.run]
    split
    · simp only [Conduct.run, World.send]
      cases world.signals.send? handle .regenerate <;> rfl
    · rfl
  | _ => rfl

end Twice

end DocPipeline
