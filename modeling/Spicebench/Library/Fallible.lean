import Mathlib.Data.List.Basic
import Mathlib.Tactic.Tauto

namespace Spicebench.Library

/-- A fallible computation changes a state and returns a value or an error; the state outlives both. -/
def Fallible (State Value : Type) : Type := State → Except String Value × State

namespace Fallible

variable {State Value Result Item : Type}

protected def pure (value : Value) : Fallible State Value := fun state => (.ok value, state)

def fail (message : String) : Fallible State Value := fun state => (.error message, state)

/-- The second computation starts where the first one returned. -/
protected def bind (first : Fallible State Value) (next : Value → Fallible State Result) : Fallible State Result :=
  fun state =>
    match first state with
    | (.ok value, middle) => next value middle
    | (.error message, middle) => (.error message, middle)

instance : Monad (Fallible State) where
  pure := Fallible.pure
  bind := Fallible.bind

/-- The state is changed, or read. -/
def modify (change : State → State) : Fallible State Unit := fun state => (.ok (), change state)

def get : Fallible State State := fun state => (.ok state, state)

/-- A value that was computed elsewhere, or its error. -/
def ofExcept : Except String Value → Fallible State Value
  | .ok value => Fallible.pure value
  | .error message => fail message

def mapError (describe : String → String) (computation : Fallible State Value) : Fallible State Value :=
  fun state =>
    match computation state with
    | (.ok value, next) => (.ok value, next)
    | (.error message, next) => (.error (describe message), next)

/-- An error of the computation is left aside. -/
def ignoreError (computation : Fallible State Unit) : Fallible State Unit := fun state =>
  (.ok (), (computation state).2)

/-- The computation runs on one part of the state. -/
def focus {Part : Type} (get : State → Part) (set : State → Part → State) (computation : Fallible Part Value) :
    Fallible State Value := fun state =>
  ((computation (get state)).1, set state (computation (get state)).2)

/-- The body runs for each item up to the first error. -/
def forEach (body : Item → Fallible State Unit) : List Item → Fallible State Unit
  | [] => Fallible.pure ()
  | item :: rest => Fallible.bind (body item) fun _ => forEach body rest

/-- The bodies run side by side for all items, and one error is returned when some of them fail. -/
def joinAll (body : Item → Fallible State Unit) : List Item → Fallible State Unit
  | [] => Fallible.pure ()
  | item :: rest => fun state =>
      match body item state with
      | (.ok (), next) => joinAll body rest next
      | (.error message, next) => (.error message, (joinAll body rest next).2)

/-- From every state with the precondition, the computation returns with the postcondition or fails
with the condition for errors. -/
def Meets (before : State → Prop) (computation : Fallible State Value) (returned : Value → State → Prop)
    (failed : State → Prop) : Prop :=
  ∀ state, before state →
    match computation state with
    | (.ok value, next) => returned value next
    | (.error _, next) => failed next

variable {before : State → Prop} {failed : State → Prop}

theorem Meets.pure {returned : Value → State → Prop} {value : Value}
    (holds : ∀ state, before state → returned value state) :
    Meets before (Pure.pure value : Fallible State Value) returned failed := holds

theorem Meets.fail {returned : Value → State → Prop} {message : String}
    (holds : ∀ state, before state → failed state) :
    Meets before (Fallible.fail message : Fallible State Value) returned failed := holds

theorem Meets.modify {returned : Unit → State → Prop} {change : State → State}
    (holds : ∀ state, before state → returned () (change state)) :
    Meets before (Fallible.modify change) returned failed := holds

theorem Meets.get {returned : State → State → Prop} (holds : ∀ state, before state → returned state state) :
    Meets before (Fallible.get : Fallible State State) returned failed := holds

/-- A sequence meets what its parts meet one after the other. -/
theorem Meets.bind {middle : Value → State → Prop} {returned : Result → State → Prop}
    {first : Fallible State Value} {next : Value → Fallible State Result}
    (one : Meets before first middle failed) (other : ∀ value, Meets (middle value) (next value) returned failed) :
    Meets before (first >>= next) returned failed := by
  intro state holds
  have met := one state holds
  change match Fallible.bind first next state with
    | (.ok value, next) => returned value next
    | (.error _, next) => failed next
  unfold Fallible.bind
  generalize first state = outcome at met ⊢
  rcases outcome with ⟨value | value, reached⟩
  · exact met
  · exact other value reached met

theorem Meets.ofExcept {returned : Value → State → Prop} {value : Except String Value}
    (holds : ∀ state, before state → ∀ result, value = .ok result → returned result state)
    (fails : ∀ state, before state → ∀ message, value = .error message → failed state) :
    Meets before (Fallible.ofExcept value) returned failed := by
  intro state precondition
  cases value with
  | ok result => exact holds state precondition result rfl
  | error message => exact fails state precondition message rfl

theorem Meets.mapError {returned : Value → State → Prop} {computation : Fallible State Value}
    {describe : String → String} (met : Meets before computation returned failed) :
    Meets before (computation.mapError describe) returned failed := by
  intro state holds
  have result := met state holds
  unfold Fallible.mapError
  generalize computation state = outcome at result ⊢
  rcases outcome with ⟨value | value, next⟩ <;> exact result

theorem Meets.ignoreError {returned : Unit → State → Prop} {computation : Fallible State Unit}
    (met : Meets before computation returned (returned ())) :
    Meets before computation.ignoreError returned failed := by
  intro state holds
  have result := met state holds
  unfold Fallible.ignoreError
  generalize computation state = outcome at result ⊢
  rcases outcome with ⟨value | value, next⟩ <;> exact result

/-- A stronger precondition and weaker postconditions are met as well. -/
theorem Meets.weaken {stronger : State → Prop} {returned weaker : Value → State → Prop} {fails : State → Prop}
    {computation : Fallible State Value} (met : Meets before computation returned failed)
    (starts : ∀ state, stronger state → before state)
    (returns : ∀ value state, returned value state → weaker value state)
    (errors : ∀ state, failed state → fails state) :
    Meets stronger computation weaker fails := by
  intro state holds
  have result := met state (starts state holds)
  generalize computation state = outcome at result ⊢
  rcases outcome with ⟨value | value, next⟩
  · exact errors next result
  · exact returns value next result

/-- The state has what holds after a return as well as after an error. -/
theorem Meets.state {computation : Fallible State Value} (met : Meets before computation (fun _ => failed) failed)
    {state : State} (holds : before state) : failed (computation state).2 := by
  have result := met state holds
  generalize computation state = outcome at result ⊢
  rcases outcome with ⟨value | value, next⟩ <;> exact result

/-- A loop keeps an invariant that says which items are done. -/
theorem Meets.forEach {body : Item → Fallible State Unit} (invariant : List Item → State → Prop)
    {items : List Item} (step : ∀ done item rest, items = done ++ item :: rest →
      Meets (invariant done) (body item) (fun _ => invariant (done ++ [item])) failed) :
    Meets (invariant []) (Fallible.forEach body items) (fun _ => invariant items) failed := by
  suffices general : ∀ done rest, items = done ++ rest →
      Meets (invariant done) (Fallible.forEach body rest) (fun _ => invariant items) failed from
    general [] items rfl
  intro done rest
  induction rest generalizing done with
  | nil =>
      rintro rfl
      rw [List.append_nil]
      exact Meets.pure fun _ holds => holds
  | cons item rest ih =>
      intro split
      refine Meets.bind (step done item rest split) fun _ => ih (done ++ [item]) ?_
      rw [split, List.append_assoc]
      rfl

/-- Bodies that cannot fail keep the invariant side by side. -/
theorem Meets.joinAll {body : Item → Fallible State Unit} (invariant : List Item → State → Prop)
    {items : List Item} (step : ∀ done item rest, items = done ++ item :: rest →
      Meets (invariant done) (body item) (fun _ => invariant (done ++ [item])) fun _ => False) :
    Meets (invariant []) (Fallible.joinAll body items) (fun _ => invariant items) failed := by
  suffices general : ∀ done rest, items = done ++ rest →
      Meets (invariant done) (Fallible.joinAll body rest) (fun _ => invariant items) failed from
    general [] items rfl
  intro done rest
  induction rest generalizing done with
  | nil =>
      rintro rfl
      rw [List.append_nil]
      exact Meets.pure fun _ holds => holds
  | cons item rest ih =>
      intro split state holds
      have met := step done item rest split state holds
      unfold Fallible.joinAll
      generalize body item state = outcome at met ⊢
      rcases outcome with ⟨message | value, next⟩
      · exact met.elim
      · refine ih (done ++ [item]) ?_ next met
        rw [split, List.append_assoc]
        rfl

/-- A fault that is there is an error. -/
def raise (fault : Option String) : Fallible State Unit :=
  match fault with
  | none => Fallible.pure ()
  | some message => fail message

/-- In a state with its guard the computation makes a change and returns; in the others it fails in a state that is
still related to the first one. -/
def Follows (kept : State → State → Prop) (computation : Fallible State Unit) (guard : State → Prop)
    (change : State → State) : Prop :=
  ∀ state, (guard state → computation state = (.ok (), change state)) ∧
    (¬ guard state → ∃ message next, computation state = (.error message, next) ∧ kept state next) ∧
    kept state (change state)

/-- The guard does not look at the state. -/
def Guarded (kept : State → State → Prop) (computation : Fallible State Unit) (guard : Prop)
    (change : State → State) : Prop := Follows kept computation (fun _ => guard) change

/-- Each item has its guard in the state that the items before it lead to. -/
def GuardedAlong (guard : Item → State → Prop) (change : State → Item → State) : List Item → State → Prop
  | [], _ => True
  | item :: rest, state => guard item state ∧ GuardedAlong guard change rest (change state item)

/-- Items whose bodies are loops of their own make one loop. -/
theorem guardedAlong_flatMap {Part : Type} {guard : Part → State → Prop} {change : State → Part → State}
    {allowed : Item → Prop} {parts : Item → List Part} (items : List Item) (state : State) :
    GuardedAlong (fun item state => allowed item ∧ GuardedAlong guard change (parts item) state)
        (fun state item => (parts item).foldl change state) items state ↔
      (∀ item ∈ items, allowed item) ∧ GuardedAlong guard change (items.flatMap parts) state := by
  have append : ∀ (first second : List Part) (state : State), GuardedAlong guard change (first ++ second) state ↔
      GuardedAlong guard change first state ∧ GuardedAlong guard change second (first.foldl change state) := by
    intro first second
    induction first with
    | nil => simp [GuardedAlong]
    | cons part rest ih =>
        intro state
        rw [List.cons_append, GuardedAlong, GuardedAlong, ih, List.foldl_cons, and_assoc]
  induction items generalizing state with
  | nil => simp [GuardedAlong]
  | cons item rest ih =>
      refine (and_congr_right fun _ => ih _).trans ?_
      rw [List.flatMap_cons, append, List.forall_mem_cons]
      tauto

section Follows

variable {kept : State → State → Prop}

theorem Follows.modify {change : State → State} (keeps : ∀ state, kept state (change state)) :
    Follows kept (Fallible.modify change) (fun _ => True) change := by
  intro state
  exact ⟨fun _ => rfl, fun guarded => absurd trivial guarded, keeps state⟩

theorem Follows.congr {computation : Fallible State Unit} {guard other : State → Prop} {change next : State → State}
    (follows : Follows kept computation guard change) (same : ∀ state, guard state ↔ other state)
    (alike : ∀ state, change state = next state) : Follows kept computation other next := by
  obtain rfl : guard = other := funext fun state => propext (same state)
  obtain rfl := funext alike
  exact follows

/-- A sequence runs where the first part runs and leads to a state in which the second one runs. -/
theorem Follows.bind (trans : ∀ one other third, kept one other → kept other third → kept one third)
    {first second : Fallible State Unit} {guard other : State → Prop} {change next : State → State}
    (one : Follows kept first guard change) (two : Follows kept second other next) :
    Follows kept (first >>= fun _ => second) (fun state => guard state ∧ other (change state)) (next ∘ change) := by
  intro state
  obtain ⟨runs, fails, keeps⟩ := one state
  obtain ⟨runsOn, failsOn, keepsOn⟩ := two (change state)
  refine ⟨?_, ?_, trans _ _ _ keeps keepsOn⟩
  · intro guarded
    show Fallible.bind first (fun _ => second) state = _
    rw [Fallible.bind, runs guarded.1]
    exact runsOn guarded.2
  · intro unguarded
    by_cases guarded : guard state
    · obtain ⟨message, last, failed, related⟩ := failsOn fun also => unguarded ⟨guarded, also⟩
      refine ⟨message, last, ?_, trans _ _ _ keeps related⟩
      show Fallible.bind first (fun _ => second) state = _
      rw [Fallible.bind, runs guarded]
      exact failed
    · obtain ⟨message, last, failed, related⟩ := fails guarded
      refine ⟨message, last, ?_, related⟩
      show Fallible.bind first (fun _ => second) state = _
      rw [Fallible.bind, failed]

/-- Behind a change that cannot fail, a state may be related to the first one in another way. -/
theorem Follows.after {late : State → State → Prop} {computation : Fallible State Unit} {guard : State → Prop}
    {first next : State → State} (follows : Follows late computation guard next)
    (joins : ∀ state last, late (first state) last → kept state last) :
    Follows kept (Fallible.modify first >>= fun _ => computation)
      (fun state => guard (first state)) (next ∘ first) := by
  intro state
  obtain ⟨runs, fails, keeps⟩ := follows (first state)
  refine ⟨runs, fun unguarded => ?_, joins _ _ keeps⟩
  obtain ⟨message, last, failed, related⟩ := fails unguarded
  exact ⟨message, last, failed, joins _ _ related⟩

/-- A value that was computed elsewhere is there or ends the computation. -/
theorem Follows.ofExcept (refl : ∀ state, kept state state) {value : Except String Value} {result : Value}
    {holds : Prop} (found : holds → value = .ok result) (missing : ¬ holds → ∃ message, value = .error message)
    {next : Value → Fallible State Unit} {guard : State → Prop} {change : State → State}
    (continues : Follows kept (next result) guard change) :
    Follows kept (Fallible.ofExcept value >>= next) (fun state => holds ∧ guard state) change := by
  intro state
  obtain ⟨runs, fails, keeps⟩ := continues state
  by_cases there : holds
  · rw [found there]
    exact ⟨fun guarded => runs guarded.2, fun unguarded => fails fun also => unguarded ⟨there, also⟩, keeps⟩
  · obtain ⟨message, failed⟩ := missing there
    rw [failed]
    exact ⟨fun guarded => absurd guarded.1 there, fun _ => ⟨message, state, rfl, refl state⟩, keeps⟩

/-- What runs on a part of the state runs on the state. -/
theorem Follows.focus {Part : Type} {related : Part → Part → Prop} {computation : Fallible Part Unit}
    {guard : Part → Prop} {change : Part → Part} (follows : Follows related computation guard change)
    {get : State → Part} {set : State → Part → State}
    (keeps : ∀ state part, related (get state) part → kept state (set state part)) :
    Follows kept (Fallible.focus get set computation) (fun state => guard (get state))
      (fun state => set state (change (get state))) := by
  intro state
  obtain ⟨runs, fails, stays⟩ := follows (get state)
  refine ⟨?_, ?_, keeps _ _ stays⟩
  · intro guarded
    rw [Fallible.focus, runs guarded]
  · intro unguarded
    obtain ⟨message, next, failed, kept⟩ := fails unguarded
    exact ⟨message, set state next, by rw [Fallible.focus, failed], keeps _ _ kept⟩

/-- A loop runs where each of its items finds its guard. -/
theorem Follows.forEach (refl : ∀ state, kept state state)
    (trans : ∀ one other third, kept one other → kept other third → kept one third)
    {body : Item → Fallible State Unit} {guard : Item → State → Prop} {change : State → Item → State}
    (each : ∀ item, Follows kept (body item) (guard item) (change · item)) (items : List Item) :
    Follows kept (Fallible.forEach body items) (GuardedAlong guard change items) (items.foldl change ·) := by
  induction items with
  | nil =>
      intro state
      exact ⟨fun _ => rfl, fun unguarded => absurd trivial unguarded, refl state⟩
  | cons item rest ih => exact (each item).bind trans ih

end Follows

section Guarded

variable {kept : State → State → Prop}

theorem Guarded.raise (refl : ∀ state, kept state state) (fault : Option String) :
    Guarded kept (Fallible.raise fault) (fault = none) id := by
  intro state
  cases fault with
  | none => exact ⟨fun _ => rfl, fun guarded => absurd rfl guarded, refl state⟩
  | some message => exact ⟨fun guarded => (nomatch guarded), fun _ => ⟨message, state, rfl, refl state⟩, refl state⟩

theorem Guarded.modify {change : State → State} (keeps : ∀ state, kept state (change state)) :
    Guarded kept (Fallible.modify change) True change := Follows.modify keeps

theorem Guarded.congr {computation : Fallible State Unit} {guard other : Prop} {change next : State → State}
    (guarded : Guarded kept computation guard change) (same : guard ↔ other)
    (alike : ∀ state, change state = next state) : Guarded kept computation other next :=
  Follows.congr guarded (fun _ => same) alike

/-- A sequence runs under the guards of both its parts. -/
theorem Guarded.bind (trans : ∀ one other third, kept one other → kept other third → kept one third)
    {first second : Fallible State Unit} {guard other : Prop} {change next : State → State}
    (one : Guarded kept first guard change) (two : Guarded kept second other next) :
    Guarded kept (first >>= fun _ => second) (guard ∧ other) (next ∘ change) := Follows.bind trans one two

/-- A loop runs under the guards of all its items. -/
theorem Guarded.forEach (refl : ∀ state, kept state state)
    (trans : ∀ one other third, kept one other → kept other third → kept one third)
    {body : Item → Fallible State Unit} {guard : Item → Prop} {change : State → Item → State}
    (each : ∀ item, Guarded kept (body item) (guard item) (change · item)) (items : List Item) :
    Guarded kept (Fallible.forEach body items) (∀ item ∈ items, guard item) (items.foldl change ·) := by
  refine Follows.congr (Follows.forEach refl trans each items) (fun state => ?_) fun _ => rfl
  induction items generalizing state with
  | nil => simp [GuardedAlong]
  | cons item rest ih => rw [GuardedAlong, ih, List.forall_mem_cons]

end Guarded

end Fallible

end Spicebench.Library
