import Spicebench.Construction.Sink.RowCounts
import Mathlib.Data.Fintype.BigOperators

namespace Spicebench.Sink
open Library Etl

/-- A write of its own would change the counter of its table like this. -/
def CountCall.counted (call : CountCall) (value : UInt64) : UInt64 :=
  match call.op with
  | .insert => value + call.rowsCurrent
  | .delete _ => saturatingSub value call.rowsCurrent
  | .update _ => value

def CountPhase.isReturned : CountPhase → Bool
  | .returned _ => true
  | _ => false

variable {Call : Type} [DecidableEq Call] {state next : RowCounts Call}

def RowCounts.value (state : RowCounts Call) (table : String) : UInt64 := (state.rowCounts table).getD 0

/-- Only a delete exchanges. -/
def CountPhase.Fits (call : CountCall) : CountPhase → Prop
  | .exchange _ => ∃ keys, call.op = .delete keys
  | _ => True

/-- A step leaves all counters as they are, or a write returns with the value that it gives to its counter. -/
inductive CountMove (state next : RowCounts Call) : Prop where
  | quiet (id : Call) (call : CountCall) (phase : CountPhase) (unfinished : phase.isReturned = false)
      (fits : phase.Fits call)
      (before : state.calls id = none ∨ ∃ old, state.calls id = some (call, old) ∧ old.isReturned = false)
      (moved : next.calls = Function.update state.calls id (some (call, phase))) (same : next.value = state.value)
  | returns (id : Call) (call : CountCall) (old : CountPhase) (total : UInt64)
      (before : state.calls id = some (call, old)) (unfinished : old.isReturned = false)
      (moved : next.calls = Function.update state.calls id (some (call, .returned total)))
      (counts : next.value = Function.update state.value call.table (call.counted (state.value call.table)))
      (result : (∃ keys, call.op = .update keys) ∨ total = call.counted (state.value call.table))

omit [DecidableEq Call] in
theorem value_update {rowCounts : String → Option UInt64} {table : String} {value : UInt64}
    {calls : Call → Option (CountCall × CountPhase)} :
    RowCounts.value ⟨Function.update rowCounts table (some value), calls⟩ =
      Function.update (fun table => (rowCounts table).getD 0) table value := by
  funext other
  by_cases same : other = table
  · subst same
    simp [RowCounts.value]
  · simp [RowCounts.value, same]

theorem advance_cases {id : Call} {call : CountCall} {phase after : CountPhase} {observed : UInt64} {exchanged : Bool}
    {rowCounts : String → Option UInt64} (found : state.calls id = some (call, phase)) (fits : phase.Fits call)
    (moved : advanceCount state.rowCounts call observed exchanged phase = some (rowCounts, after)) :
    CountMove state ⟨rowCounts, Function.update state.calls id (some (call, after))⟩ := by
  cases phase with
  | lookup =>
      obtain ⟨rfl, rfl⟩ := Prod.mk.inj (Option.some.inj moved)
      refine .quiet id call _ ?_ ?_ (.inr ⟨_, found, rfl⟩) rfl rfl
      · split <;> rfl
      · split <;> trivial
  | createEntry =>
      obtain ⟨rfl, rfl⟩ := Prod.mk.inj (Option.some.inj moved)
      refine .quiet id call .apply rfl trivial (.inr ⟨_, found, rfl⟩) rfl ?_
      rw [value_update]
      exact Function.update_eq_self _ _
  | apply =>
      obtain ⟨value, present, same⟩ := Option.map_eq_some_iff.mp moved
      have current : state.value call.table = value := by simp [RowCounts.value, present]
      cases op : call.op with
      | insert =>
          rw [op] at same
          obtain ⟨rfl, rfl⟩ := Prod.mk.inj same
          refine .returns id call _ _ found rfl rfl ?_ (.inr ?_)
          · rw [value_update, CountCall.counted, op, current]
            rfl
          · rw [CountCall.counted, op, current]
      | delete keys =>
          rw [op] at same
          obtain ⟨rfl, rfl⟩ := Prod.mk.inj same
          exact .quiet id call (.exchange observed) rfl ⟨keys, op⟩ (.inr ⟨_, found, rfl⟩) rfl rfl
      | update keys =>
          rw [op] at same
          obtain ⟨rfl, rfl⟩ := Prod.mk.inj same
          refine .returns id call _ _ found rfl rfl ?_ (.inl ⟨keys, op⟩)
          rw [CountCall.counted, op]
          exact (Function.update_eq_self _ _).symm
  | exchange expected =>
      obtain ⟨keys, op⟩ := fits
      obtain ⟨value, present, same⟩ := Option.bind_eq_some_iff.mp moved
      have current : state.value call.table = value := by simp [RowCounts.value, present]
      cases exchanged with
      | false =>
          obtain ⟨rfl, rfl⟩ := Prod.mk.inj (Option.some.inj same)
          exact .quiet id call (.exchange observed) rfl ⟨keys, op⟩ (.inr ⟨_, found, rfl⟩) rfl rfl
      | true =>
          simp only [if_true, Option.ite_none_right_eq_some, Option.some.injEq, Prod.mk.injEq] at same
          obtain ⟨rfl, rfl, rfl⟩ := same
          have counted : call.counted (state.value call.table) = saturatingSub value call.rowsCurrent := by
            rw [CountCall.counted, op, current]
          refine .returns id call _ _ found rfl rfl ?_ (.inr counted.symm)
          rw [value_update, counted]
          rfl
  | returned total => exact nomatch moved

def RowCounts.Fits (state : RowCounts Call) : Prop :=
  ∀ id call phase, state.calls id = some (call, phase) → phase.Fits call

theorem step_cases (fits : state.Fits) (stepped : (countMachine Call).Step state next) : CountMove state next := by
  obtain ⟨action, _, moved⟩ := stepped
  cases action with
  | write id call =>
      change countStep state (.write id call) = some next at moved
      unfold countStep at moved
      cases found : state.calls id with
      | some _ => simp [found] at moved
      | none =>
          simp only [found, Option.some.injEq] at moved
          subst moved
          exact .quiet id call .lookup rfl trivial (.inl found) rfl rfl
  | advance id observed exchanged =>
      change countStep state (.advance id observed exchanged) = some next at moved
      obtain ⟨⟨call, phase⟩, found, moved⟩ := Option.bind_eq_some_iff.mp moved
      obtain ⟨⟨rowCounts, after⟩, advanced, rfl⟩ := Option.map_eq_some_iff.mp moved
      exact advance_cases found (fits id call phase found) advanced

theorem CountMove.fits (moved : CountMove state next) (fits : state.Fits) : next.Fits := by
  intro id call phase found
  cases moved with
  | quiet other its now _ right _ moved _ =>
      rw [moved] at found
      by_cases same : id = other
      · subst same
        rw [Function.update_self] at found
        obtain ⟨rfl, rfl⟩ := Prod.mk.inj (Option.some.inj found)
        exact right
      · rw [Function.update_of_ne same] at found
        exact fits id call phase found
  | returns other its old total _ _ moved _ _ =>
      rw [moved] at found
      by_cases same : id = other
      · subst same
        rw [Function.update_self] at found
        obtain ⟨rfl, rfl⟩ := Prod.mk.inj (Option.some.inj found)
        trivial
      · rw [Function.update_of_ne same] at found
        exact fits id call phase found

/-- The writes of a table, one after another, take its counter from zero to this value. -/
def replayed (log : List (Call × CountCall)) (table : String) : UInt64 :=
  (log.filter fun entry => entry.2.table = table).foldl (fun value entry => entry.2.counted value) 0

omit [DecidableEq Call] in
theorem replayed_concat (log : List (Call × CountCall)) (id : Call) (call : CountCall) :
    replayed (log ++ [(id, call)]) =
      Function.update (replayed log) call.table (call.counted (replayed log call.table)) := by
  funext table
  by_cases same : table = call.table
  · subst same
    simp [replayed]
  · simp [replayed, same, Ne.symm same]

/-- A log names each write that returned once, and its order explains all counters and all totals. -/
structure Explains (log : List (Call × CountCall)) (state : RowCounts Call) : Prop where
  once : (log.map Prod.fst).Nodup
  returned : ∀ id call, (id, call) ∈ log ↔ ∃ total, state.calls id = some (call, .returned total)
  counters : state.value = replayed log
  totals : ∀ before id call after total, log = before ++ (id, call) :: after →
    state.calls id = some (call, .returned total) → (∀ keys, call.op ≠ .update keys) →
      total = replayed (before ++ [(id, call)]) call.table

omit [DecidableEq Call] in
theorem not_returned {calls : Call → Option (CountCall × CountPhase)} {id : Call} {call : CountCall}
    {phase : CountPhase} (found : calls id = some (call, phase)) (unfinished : phase.isReturned = false)
    (other : CountCall) (total : UInt64) : calls id ≠ some (other, .returned total) := by
  intro returned
  obtain ⟨_, rfl⟩ := Prod.mk.inj (Option.some.inj (found.symm.trans returned))
  exact nomatch unfinished

theorem Explains.quiet {log : List (Call × CountCall)} (explains : Explains log state) {id : Call} {call : CountCall}
    {phase : CountPhase} (unfinished : phase.isReturned = false)
    (before : state.calls id = none ∨ ∃ old, state.calls id = some (call, old) ∧ old.isReturned = false)
    (moved : next.calls = Function.update state.calls id (some (call, phase))) (same : next.value = state.value) :
    Explains log next := by
  have mine : ∀ other total, state.calls id ≠ some (other, .returned total) := by
    intro other total
    obtain fresh | ⟨old, found, active⟩ := before
    · rw [fresh]
      exact nofun
    · exact not_returned found active other total
  have returns : ∀ other call total, next.calls other = some (call, .returned total) ↔
      state.calls other = some (call, .returned total) := by
    intro other its total
    rw [moved]
    by_cases own : other = id
    · subst own
      rw [Function.update_self]
      refine iff_of_false ?_ (mine its total)
      intro returned
      obtain ⟨_, rfl⟩ := Prod.mk.inj (Option.some.inj returned)
      exact nomatch unfinished
    · rw [Function.update_of_ne own]
  refine ⟨explains.once, ?_, same.trans explains.counters, ?_⟩
  · intro other its
    simp only [explains.returned, returns]
  · intro earlier other its after total split found
    exact explains.totals earlier other its after total split ((returns other its total).mp found)

theorem Explains.returns {log : List (Call × CountCall)} (explains : Explains log state) {id : Call} {call : CountCall}
    {old : CountPhase} {total : UInt64} (before : state.calls id = some (call, old))
    (unfinished : old.isReturned = false)
    (moved : next.calls = Function.update state.calls id (some (call, .returned total)))
    (counts : next.value = Function.update state.value call.table (call.counted (state.value call.table)))
    (result : (∃ keys, call.op = .update keys) ∨ total = call.counted (state.value call.table)) :
    Explains (log ++ [(id, call)]) next := by
  have fresh : ∀ other, (id, other) ∉ log := by
    intro other member
    obtain ⟨total, returned⟩ := (explains.returned id other).mp member
    exact not_returned before unfinished other total returned
  have counters : next.value = replayed (log ++ [(id, call)]) := by
    rw [counts, replayed_concat, explains.counters]
  refine ⟨?_, ?_, counters, ?_⟩
  · rw [List.map_append, List.nodup_append]
    refine ⟨explains.once, by simp, ?_⟩
    rintro other member _ last rfl
    obtain ⟨⟨_, its⟩, inside, rfl⟩ := List.mem_map.mp member
    obtain rfl := List.mem_singleton.mp last
    exact fresh its inside
  · intro other its
    rw [moved, List.mem_append, List.mem_singleton, explains.returned]
    by_cases own : other = id
    · subst own
      rw [Function.update_self]
      constructor
      · rintro (⟨total, returned⟩ | same)
        · exact absurd returned (not_returned before unfinished its total)
        · obtain ⟨_, rfl⟩ := Prod.mk.inj same
          exact ⟨total, rfl⟩
      · rintro ⟨_, returned⟩
        obtain ⟨rfl, _⟩ := Prod.mk.inj (Option.some.inj returned)
        exact .inr rfl
    · rw [Function.update_of_ne own]
      exact or_iff_left fun same => own (Prod.mk.inj same).1
  · intro earlier other its after amount split found counted
    rw [moved] at found
    obtain rfl | ⟨rest, last, rfl⟩ := List.eq_nil_or_concat' after
    · obtain ⟨rfl, same⟩ := List.append_inj' split rfl
      obtain ⟨rfl, rfl⟩ := Prod.mk.inj (List.cons.inj same).1
      rw [Function.update_self] at found
      obtain ⟨_, same⟩ := Prod.mk.inj (Option.some.inj found)
      obtain rfl := CountPhase.returned.inj same
      obtain ⟨keys, update⟩ | value := result
      · exact absurd update (counted keys)
      · rw [value, ← counters, counts, Function.update_self]
    · rw [← List.cons_append, ← List.append_assoc] at split
      obtain ⟨rfl, _⟩ := List.append_inj' split rfl
      have own : other ≠ id := by
        rintro rfl
        exact fresh its (by simp)
      rw [Function.update_of_ne own] at found
      exact explains.totals earlier other its rest amount rfl found counted

theorem Explains.move {log : List (Call × CountCall)} (explains : Explains log state) (moved : CountMove state next) :
    ∃ more, Explains (log ++ more) next := by
  cases moved with
  | quiet id call phase unfinished _ before moved same =>
      refine ⟨[], ?_⟩
      rw [List.append_nil]
      exact explains.quiet unfinished before moved same
  | returns id call old total before unfinished moved counts result =>
      exact ⟨[(id, call)], explains.returns before unfinished moved counts result⟩

omit [DecidableEq Call] in
theorem new_explains : Explains [] (RowCounts.new Call) := by
  refine ⟨List.nodup_nil, ?_, rfl, ?_⟩
  · intro id call
    simp [RowCounts.new]
  · intro before id call after total split
    simp at split

omit [DecidableEq Call] in
theorem new_fits : (RowCounts.new Call).Fits := fun _ _ _ found => nomatch found

/-- Writes that go on counting extend the log. -/
theorem Explains.reaches {log : List (Call × CountCall)} (explains : Explains log state) (fits : state.Fits)
    (reached : (countMachine Call).Reaches state next) : next.Fits ∧ ∃ more, Explains (log ++ more) next := by
  refine Machine.Reaches.invariant (fun later => later.Fits ∧ ∃ more, Explains (log ++ more) later) ?_ reached
    ⟨fits, [], by rwa [List.append_nil]⟩
  rintro state next ⟨fits, more, explains⟩ stepped
  have moved := step_cases fits stepped
  obtain ⟨last, explains⟩ := explains.move moved
  exact ⟨moved.fits fits, more ++ last, by rwa [← List.append_assoc]⟩

/-- However many writes count at the same time, their counters and their totals are those of writes that count one
after another, in an order that only grows: a write that has returned stands before each one that starts later. -/
theorem row_counters_linearize (reached : (countMachine Call).Reaches (.new Call) state) :
    ∃ log, Explains log state ∧
      ∀ later, (countMachine Call).Reaches state later → ∃ more, Explains (log ++ more) later := by
  obtain ⟨fits, log, explains⟩ := new_explains.reaches new_fits reached
  rw [List.nil_append] at explains
  exact ⟨log, explains, fun later further => (explains.reaches fits further).2⟩

def insertCall : CountCall := ⟨"t", .insert, 5⟩

def deleteCall : CountCall := ⟨"t", .delete ["id"], 2⟩

/-- The delete reads its counter before the insert adds to it, so its first exchange fails. -/
def racingTrace : List (CountAction Bool) :=
  [.write false insertCall, .write true deleteCall, .advance true 0 false, .advance false 0 false,
    .advance true 0 false, .advance false 0 false, .advance true 0 false, .advance false 0 false,
    .advance true 5 false, .advance true 5 true]

theorem row_counters_linearize_racing : ∃ (state : RowCounts Bool) (log : List (Bool × CountCall)),
    Explains log state ∧ state.value "t" = 3 := by
  have ran : ((countMachine Bool).run (.new Bool) racingTrace).map (fun state => state.value "t") = some 3 := by
    decide
  obtain ⟨state, ran, value⟩ := Option.map_eq_some_iff.mp ran
  obtain ⟨log, explains, _⟩ := row_counters_linearize
    ((countMachine Bool).reaches_of_run (fun _ _ => trivial) ran)
  exact ⟨state, log, explains, value⟩

section Balance

variable [Fintype Call]

/-- The rows that an insert adds to a table, and those that a delete takes from it. -/
def CountCall.inserts (table : String) (call : CountCall) : Nat :=
  match call.op with
  | .insert => if call.table = table then call.rowsCurrent.toNat else 0
  | _ => 0

def CountCall.deletes (table : String) (call : CountCall) : Nat :=
  match call.op with
  | .delete _ => if call.table = table then call.rowsCurrent.toNat else 0
  | _ => 0

def started (size : CountCall → Nat) : Option (CountCall × CountPhase) → Nat
  | some (call, _) => size call
  | none => 0

def finished (size : CountCall → Nat) : Option (CountCall × CountPhase) → Nat
  | some (call, .returned _) => size call
  | _ => 0

/-- All writes together have this size. -/
def RowCounts.weighed (state : RowCounts Call) (size : Option (CountCall × CountPhase) → Nat) : Nat :=
  ∑ id, size (state.calls id)

theorem weighed_update {id : Call} {entry : Option (CountCall × CountPhase)}
    (moved : next.calls = Function.update state.calls id entry) (size : Option (CountCall × CountPhase) → Nat) :
    next.weighed size + size (state.calls id) = state.weighed size + size entry := by
  have whole : state.weighed size = size (state.calls id) + ∑ other ∈ Finset.univ \ {id}, size (state.calls other) := by
    rw [RowCounts.weighed, ← Finset.sum_sdiff (Finset.subset_univ {id}), Finset.sum_singleton, Nat.add_comm]
  have changed : next.weighed size = size entry + ∑ other ∈ Finset.univ \ {id}, size (state.calls other) := by
    rw [RowCounts.weighed, ← Finset.sum_sdiff (Finset.subset_univ {id}), Finset.sum_singleton, Nat.add_comm, moved,
      Function.update_self]
    congr 1
    refine Finset.sum_congr rfl fun other outside => ?_
    rw [Function.update_of_ne]
    simpa using outside
  omega

omit [DecidableEq Call] in
theorem finished_le_started (state : RowCounts Call) (size : CountCall → Nat) :
    state.weighed (finished size) ≤ state.weighed (started size) := by
  refine Finset.sum_le_sum fun id _ => ?_
  cases state.calls id with
  | none => exact le_refl _
  | some entry =>
      obtain ⟨call, phase⟩ := entry
      cases phase <;> simp [finished, started]

/-- The deletes that have started take no more rows than the inserts that have returned have added, and no counter
overflows. -/
def RowCounts.Covered (state : RowCounts Call) : Prop :=
  ∀ table, state.weighed (started (CountCall.deletes table)) ≤ state.weighed (finished (CountCall.inserts table)) ∧
    state.weighed (started (CountCall.inserts table)) < UInt64.size

def CoveredStep (state next : RowCounts Call) : Prop := (countMachine Call).Step state next ∧ next.Covered

/-- The counter of a table is what the returned writes have inserted less what they have deleted. -/
def RowCounts.Exact (state : RowCounts Call) : Prop :=
  ∀ table, (state.value table).toNat + state.weighed (finished (CountCall.deletes table)) =
    state.weighed (finished (CountCall.inserts table))

theorem CountMove.exact (moved : CountMove state next) (covered : next.Covered) (balanced : state.Exact) :
    next.Exact := by
  intro table
  have before := balanced table
  have enough := covered table
  have inserted := finished_le_started next (CountCall.inserts table)
  have deleted := finished_le_started next (CountCall.deletes table)
  cases moved with
  | quiet id call phase unfinished _ active moved same =>
      have nothing : ∀ size, next.weighed (finished size) = state.weighed (finished size) := by
        intro size
        have changed := weighed_update moved (finished size)
        have mine : finished size (state.calls id) = 0 := by
          obtain fresh | ⟨old, found, active⟩ := active
          · rw [fresh]
            rfl
          · rw [found]
            cases old <;> first | rfl | exact nomatch active
        have own : finished size (some (call, phase)) = 0 := by
          cases phase <;> first | rfl | exact nomatch unfinished
        omega
      rw [same, nothing, nothing]
      exact before
  | returns id call old total found unfinished moved counts _ =>
      have grown : ∀ size, next.weighed (finished size) = state.weighed (finished size) + size call := by
        intro size
        have changed := weighed_update moved (finished size)
        have mine : finished size (state.calls id) = 0 := by
          rw [found]
          cases old <;> first | rfl | exact nomatch unfinished
        have own : finished size (some (call, .returned total)) = size call := rfl
        omega
      rw [grown] at inserted deleted enough
      rw [grown, grown, counts]
      by_cases own : table = call.table
      · subst own
        rw [Function.update_self]
        cases op : call.op with
        | insert =>
            have rows : call.inserts call.table = call.rowsCurrent.toNat := by simp [CountCall.inserts, op]
            have none : call.deletes call.table = 0 := by simp [CountCall.deletes, op]
            rw [CountCall.counted, op, UInt64.toNat_add, rows, none]
            have fits : (state.value call.table).toNat + call.rowsCurrent.toNat < UInt64.size := by omega
            rw [Nat.mod_eq_of_lt fits]
            omega
        | delete keys =>
            have rows : call.deletes call.table = call.rowsCurrent.toNat := by simp [CountCall.deletes, op]
            have none : call.inserts call.table = 0 := by simp [CountCall.inserts, op]
            have held : call.rowsCurrent.toNat ≤ (state.value call.table).toNat := by
              have := grown (CountCall.deletes call.table)
              omega
            rw [CountCall.counted, op, saturatingSub, if_pos (UInt64.le_iff_toNat_le.mpr held),
              UInt64.toNat_sub_of_le _ _ (UInt64.le_iff_toNat_le.mpr held), rows, none]
            omega
        | update keys =>
            have rows : call.deletes call.table = 0 := by simp [CountCall.deletes, op]
            have none : call.inserts call.table = 0 := by simp [CountCall.inserts, op]
            rw [CountCall.counted, op, rows, none]
            exact before
      · have rows : call.deletes table = 0 := by
          unfold CountCall.deletes
          split <;> simp [Ne.symm own]
        have none : call.inserts table = 0 := by
          unfold CountCall.inserts
          split <;> simp [Ne.symm own]
        rw [Function.update_of_ne own, rows, none]
        exact before

/-- As long as no delete takes more rows than the returned inserts have added, no concurrent count is lost: at every
moment a counter is what the returned writes have inserted less what they have deleted. -/
theorem row_counters_balance (reached : Relation.ReflTransGen CoveredStep (.new Call) state) (table : String) :
    (state.value table).toNat + state.weighed (finished (CountCall.deletes table)) =
      state.weighed (finished (CountCall.inserts table)) := by
  have all : state.Fits ∧ state.Exact := by
    induction reached with
    | refl =>
        refine ⟨new_fits, ?_⟩
        intro table
        simp [RowCounts.new, RowCounts.value, RowCounts.weighed, finished]
    | tail _ last ih =>
        have moved := step_cases ih.1 last.1
        exact ⟨moved.fits ih.1, moved.exact last.2 ih.2⟩
  exact all.2 table

/-- The sample delete starts once the sample insert has returned. -/
def inTurn (state : RowCounts Bool) : Bool :=
  (match state.calls false with
    | none => true
    | some (call, _) => call == insertCall) &&
  (match state.calls true, state.calls false with
    | none, _ => true
    | some (call, _), some (_, .returned _) => call == deleteCall
    | _, _ => false)

theorem covered_of_inTurn {state : RowCounts Bool} (turn : inTurn state = true) : state.Covered := by
  intro table
  obtain ⟨rowCounts, calls⟩ := state
  simp only [inTurn, RowCounts.weighed, Fintype.sum_bool] at turn ⊢
  cases second : calls false with
  | none =>
      cases first : calls true with
      | none => simp [started, finished, UInt64.size]
      | some entry => simp [first, second] at turn
  | some entry =>
      obtain ⟨call, phase⟩ := entry
      cases first : calls true with
      | none =>
          simp only [first, second, Bool.and_true, beq_iff_eq] at turn
          subst turn
          by_cases same : "t" = table <;>
            simp [started, CountCall.deletes, CountCall.inserts, insertCall, same, UInt64.size]
      | some other =>
          obtain ⟨later, rest⟩ := other
          cases phase with
          | returned total =>
              simp only [first, second, Bool.and_eq_true, beq_iff_eq] at turn
              obtain ⟨rfl, rfl⟩ := turn
              by_cases same : "t" = table <;> simp [started, finished, CountCall.deletes, CountCall.inserts,
                insertCall, deleteCall, same, UInt64.size]
          | _ => simp [first, second] at turn

/-- A run whose states are all in turn takes covered steps. -/
theorem coveredSteps_of_run {actions : List (CountAction Bool)} {state final : RowCounts Bool}
    (ran : actions.foldlM (fun state action => (countStep state action).filter inTurn) state = some final) :
    Relation.ReflTransGen CoveredStep state final := by
  induction actions generalizing state with
  | nil =>
      obtain rfl : state = final := Option.some.inj ran
      exact .refl
  | cons action rest ih =>
      rw [List.foldlM_cons] at ran
      obtain ⟨next, stepped, ran⟩ := Option.bind_eq_some_iff.mp ran
      obtain ⟨stepped, turn⟩ := Option.filter_eq_some_iff.mp stepped
      exact .head ⟨⟨action, trivial, stepped⟩, covered_of_inTurn turn⟩ (ih ran)

theorem row_counters_balance_inTurn : ∃ state : RowCounts Bool, (state.value "t").toNat +
    state.weighed (finished (CountCall.deletes "t")) = state.weighed (finished (CountCall.inserts "t")) ∧
      state.value "t" = 3 := by
  have ran : (([.write false insertCall, .advance false 0 false, .advance false 0 false, .advance false 0 false,
      .write true deleteCall, .advance true 0 false, .advance true 5 false, .advance true 5 true] :
        List (CountAction Bool)).foldlM (fun state action => (countStep state action).filter inTurn)
          (.new Bool)).map (fun state => state.value "t") = some 3 := by
    decide
  obtain ⟨state, ran, value⟩ := Option.map_eq_some_iff.mp ran
  exact ⟨state, row_counters_balance (coveredSteps_of_run ran) "t", value⟩

end Balance

end Spicebench.Sink
