import Mathlib.Logic.Relation
import Mathlib.Order.WellFounded

namespace Spicebench.Library

/-- A machine takes one named action at a time, and its surroundings admit only some actions. -/
structure Machine (State Action : Type) where
  step : State → Action → Option State
  admits : Action → Prop

namespace Machine

variable {State Action : Type} (machine : Machine State Action)

/-- Some admitted action leads from one state to the next. -/
def Step (state next : State) : Prop :=
  ∃ action, machine.admits action ∧ machine.step state action = some next

/-- Any number of admitted actions leads from one state to another. -/
def Reaches : State → State → Prop := Relation.ReflTransGen machine.Step

/-- No admitted action applies. -/
def Stuck (state : State) : Prop := ∀ next, ¬ machine.Step state next

/-- Every schedule from the state is finite. -/
def Terminates (state : State) : Prop := Acc (fun next previous => machine.Step previous next) state

/-- The executable run applies a list of actions in order. -/
def run (state : State) (actions : List Action) : Option State :=
  actions.foldlM machine.step state

@[simp] theorem run_nil (state : State) : machine.run state [] = some state := rfl

theorem run_cons (state : State) (action : Action) (rest : List Action) :
    machine.run state (action :: rest) = (machine.step state action).bind (machine.run · rest) := rfl

theorem run_append (state : State) (first second : List Action) :
    machine.run state (first ++ second) = (machine.run state first).bind (machine.run · second) := by
  simp only [run, List.foldlM_append]
  rfl

/-- A run takes its first step and goes on to its end. -/
theorem exists_run_cons {machine : Machine State Action} {state : State} {action : Action} {rest : List Action}
    {Holds : State → Prop} (next : State) (stepped : machine.step state action = some next)
    (later : ∃ final, machine.run next rest = some final ∧ Holds final) :
    ∃ final, machine.run state (action :: rest) = some final ∧ Holds final := by
  obtain ⟨final, ran, holds⟩ := later
  refine ⟨final, ?_, holds⟩
  rw [run_cons, stepped]
  exact ran

/-- A run whose actions are all admitted is a reachable path. -/
theorem reaches_of_run {state final : State} {actions : List Action}
    (admitted : ∀ action ∈ actions, machine.admits action)
    (ran : machine.run state actions = some final) : machine.Reaches state final := by
  induction actions generalizing state with
  | nil =>
      obtain rfl : state = final := Option.some.inj ran
      exact .refl
  | cons action rest ih =>
      rw [run_cons, Option.bind_eq_some_iff] at ran
      obtain ⟨next, stepped, ran⟩ := ran
      have first : machine.Step state next := ⟨action, admitted action (by simp), stepped⟩
      exact .head first (ih (fun other member => admitted other (by simp [member])) ran)

/-- A property of a state and of the actions to come that every step keeps holds at the end of a run. -/
theorem run_invariant (Holds : State → List Action → Prop)
    (kept : ∀ state action rest next, machine.admits action → Holds state (action :: rest) →
      machine.step state action = some next → Holds next rest)
    {state final : State} {actions : List Action} (admitted : ∀ action ∈ actions, machine.admits action)
    (ran : machine.run state actions = some final) (initial : Holds state actions) : Holds final [] := by
  induction actions generalizing state with
  | nil =>
      obtain rfl : state = final := Option.some.inj ran
      exact initial
  | cons action rest ih =>
      rw [run_cons, Option.bind_eq_some_iff] at ran
      obtain ⟨next, stepped, ran⟩ := ran
      have later : ∀ other ∈ rest, machine.admits other := by
        intro other member
        exact admitted other (List.mem_cons_of_mem _ member)
      have first := kept state action rest next (admitted action List.mem_cons_self) initial stepped
      exact ih later ran first

/-- The executable run stops at an action that the state does not allow. -/
def runWhen (allowed : State → Action → Bool) (state : State) (actions : List Action) : Option State :=
  actions.foldlM (fun state action => if allowed state action then machine.step state action else none) state

/-- Some admitted action that the state allows leads to the next state. -/
def StepWhen (allowed : State → Action → Bool) (state next : State) : Prop :=
  ∃ action, machine.admits action ∧ allowed state action = true ∧ machine.step state action = some next

/-- Any number of allowed actions leads from one state to another. -/
def ReachesWhen (allowed : State → Action → Bool) : State → State → Prop :=
  Relation.ReflTransGen (machine.StepWhen allowed)

theorem exists_runWhen_cons {machine : Machine State Action} {allowed : State → Action → Bool} {state : State}
    {action : Action} {rest : List Action} {Holds : State → Prop} (next : State)
    (accepted : allowed state action = true) (stepped : machine.step state action = some next)
    (later : ∃ final, machine.runWhen allowed next rest = some final ∧ Holds final) :
    ∃ final, machine.runWhen allowed state (action :: rest) = some final ∧ Holds final := by
  obtain ⟨final, ran, holds⟩ := later
  refine ⟨final, ?_, holds⟩
  rw [runWhen, List.foldlM_cons, if_pos accepted, stepped]
  exact ran

theorem reachesWhen_of_runWhen {allowed : State → Action → Bool} {state final : State} {actions : List Action}
    (admitted : ∀ action ∈ actions, machine.admits action)
    (ran : machine.runWhen allowed state actions = some final) : machine.ReachesWhen allowed state final := by
  induction actions generalizing state with
  | nil =>
      obtain rfl : state = final := Option.some.inj ran
      exact .refl
  | cons action rest ih =>
      rw [runWhen, List.foldlM_cons] at ran
      obtain ⟨next, stepped, ran⟩ := Option.bind_eq_some_iff.mp ran
      rw [Option.ite_none_right_eq_some] at stepped
      have first : machine.StepWhen allowed state next := ⟨action, admitted action (by simp), stepped⟩
      exact .head first (ih (fun other member => admitted other (by simp [member])) ran)

variable {machine}

/-- A property kept by every step holds along every path. -/
theorem Reaches.invariant (Holds : State → Prop)
    (kept : ∀ state next, Holds state → machine.Step state next → Holds next)
    {state final : State} (reached : machine.Reaches state final) (initial : Holds state) :
    Holds final := by
  induction reached with
  | refl => exact initial
  | tail _ last ih => exact kept _ _ ih last

/-- A property kept by every allowed step holds along every allowed path. -/
theorem ReachesWhen.invariant {allowed : State → Action → Bool} (Holds : State → Prop)
    (kept : ∀ state next, Holds state → machine.StepWhen allowed state next → Holds next)
    {state final : State} (reached : machine.ReachesWhen allowed state final) (initial : Holds state) :
    Holds final := by
  induction reached with
  | refl => exact initial
  | tail _ last ih => exact kept _ _ ih last

/-- A machine that takes the steps of another one can follow all of its paths. -/
theorem Reaches.lift {Whole Label : Type} {other : Machine Whole Label} (embed : State → Whole)
    (steps : ∀ state next, machine.Step state next → other.Step (embed state) (embed next))
    {state final : State} (reached : machine.Reaches state final) : other.Reaches (embed state) (embed final) := by
  induction reached with
  | refl => exact .refl
  | tail _ last ih => exact .tail ih (steps _ _ last)

/-- A rank that every step lowers bounds every schedule. -/
theorem terminates_of_rank {Rank : Type} {less : Rank → Rank → Prop} (wellFounded : WellFounded less)
    (rank : State → Rank) (Holds : State → Prop)
    (kept : ∀ state next, Holds state → machine.Step state next → Holds next)
    (lowers : ∀ state next, Holds state → machine.Step state next → less (rank next) (rank state))
    (state : State) (initial : Holds state) : machine.Terminates state := by
  induction state using (InvImage.wf rank wellFounded).induction with
  | _ state ih =>
      refine ⟨_, fun next stepped => ?_⟩
      exact ih next (lowers state next initial stepped) (kept state next initial stepped)

/-- What a terminating state reaches terminates too. -/
theorem Terminates.reached {state final : State} (terminates : machine.Terminates state)
    (path : machine.Reaches state final) : machine.Terminates final := by
  induction path with
  | refl => exact terminates
  | tail _ last ih => exact ih.inv last

/-- A terminating machine can always be run until it is stuck. -/
theorem Terminates.exists_stuck {state : State} (terminates : machine.Terminates state) :
    ∃ final, machine.Reaches state final ∧ machine.Stuck final := by
  induction terminates with
  | intro state _ ih =>
      by_cases stuck : machine.Stuck state
      · exact ⟨state, .refl, stuck⟩
      · simp only [Stuck, not_forall, not_not] at stuck
        obtain ⟨next, stepped⟩ := stuck
        obtain ⟨final, reached, halted⟩ := ih next stepped
        exact ⟨final, .head stepped reached, halted⟩

end Machine

end Spicebench.Library
