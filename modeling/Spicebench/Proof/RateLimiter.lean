import Spicebench.Construction.RateLimiter
import Spicebench.Library.Timeline
import Mathlib.Algebra.Order.Field.Basic
import Mathlib.Algebra.Order.Field.Rat
import Mathlib.Tactic.FieldSimp
import Mathlib.Tactic.NormNum

namespace Spicebench.Util

open Library

namespace Grant

/-- A grant occupies the time that its units cost. -/
def slot (unitsPerSec : Nat) (grant : Grant) : Slot ℚ := ⟨grant.start, grant.units / unitsPerSec⟩

/-- Each grant starts at its own reading, or else where the cursor has been left by the grant before. -/
def Unbanked (unitsPerSec : Nat) : ℚ → List Grant → Prop
  | _, [] => True
  | cursor, grant :: rest =>
      grant.start = max cursor grant.now ∧ Unbanked unitsPerSec (grant.slot unitsPerSec).finish rest

/-- The cursor stands at the finish of the last grant. -/
def cursor (unitsPerSec : Nat) (created : ℚ) (grants : List Grant) : ℚ :=
  grants.foldl (fun _ grant => (grant.slot unitsPerSec).finish) created

variable {unitsPerSec : Nat}

theorem length_nonneg (grant : Grant) : 0 ≤ (grant.slot unitsPerSec).length := by
  have units : (0 : ℚ) ≤ grant.units := Nat.cast_nonneg _
  exact div_nonneg units (Nat.cast_nonneg _)

theorem start_le_finish (grant : Grant) : grant.start ≤ (grant.slot unitsPerSec).finish := by
  have lasts : 0 ≤ (grant.slot unitsPerSec).length := grant.length_nonneg
  show grant.start ≤ grant.start + (grant.slot unitsPerSec).length
  exact le_add_of_nonneg_right lasts

theorem unbanked_append {created : ℚ} {grants : List Grant} (unbanked : Unbanked unitsPerSec created grants)
    {grant : Grant} (starts : grant.start = max (cursor unitsPerSec created grants) grant.now) :
    Unbanked unitsPerSec created (grants ++ [grant]) := by
  induction grants generalizing created with
  | nil => exact ⟨starts, trivial⟩
  | cons first rest ih => exact ⟨unbanked.1, ih unbanked.2 starts⟩

@[simp] theorem cursor_append (created : ℚ) (grants : List Grant) (grant : Grant) :
    cursor unitsPerSec created (grants ++ [grant]) = (grant.slot unitsPerSec).finish := by
  simp [cursor]

/-- No grant starts before the cursor that it has found. -/
theorem Unbanked.cursor_le {created : ℚ} {grants : List Grant} (unbanked : Unbanked unitsPerSec created grants)
    {grant : Grant} (member : grant ∈ grants) : created ≤ grant.start := by
  induction grants generalizing created with
  | nil => cases member
  | cons first rest ih =>
      obtain ⟨starts, unbanked⟩ := unbanked
      have opening : created ≤ first.start := starts ▸ le_max_left _ _
      cases member with
      | head => exact opening
      | tail _ member =>
          have later := ih unbanked member
          exact opening.trans (first.start_le_finish.trans later)

theorem Unbanked.now_le {created : ℚ} {grants : List Grant} (unbanked : Unbanked unitsPerSec created grants)
    {grant : Grant} (member : grant ∈ grants) : grant.now ≤ grant.start := by
  induction grants generalizing created with
  | nil => cases member
  | cons first rest ih =>
      cases member with
      | head => exact unbanked.1 ▸ le_max_right _ _
      | tail _ member => exact ih unbanked.2 member

theorem Unbanked.inTurn {created : ℚ} {grants : List Grant} (unbanked : Unbanked unitsPerSec created grants) :
    Slot.InTurn (grants.map (slot unitsPerSec)) := by
  induction grants generalizing created with
  | nil => exact List.Pairwise.nil
  | cons first rest ih =>
      refine List.pairwise_cons.mpr ⟨?_, ih unbanked.2⟩
      intro later member
      obtain ⟨grant, found, rfl⟩ := List.mem_map.mp member
      exact unbanked.2.cursor_le found

theorem sum_lengths (grants : List Grant) :
    ((grants.map (slot unitsPerSec)).map Slot.length).sum = ((grants.map units).sum : ℚ) / unitsPerSec := by
  induction grants with
  | nil => simp
  | cons grant rest ih =>
      simp only [List.map_cons, List.sum_cons, ih, Nat.cast_add, add_div]
      rfl

/-- The grants that start inside a window. -/
def inWindow (grants : List Grant) (opening width : ℚ) : List Grant :=
  grants.filter fun grant => opening ≤ grant.start ∧ grant.start ≤ opening + width

/-- The units that start inside a window exceed what the rate allows for it by at most the last request. -/
theorem Unbanked.sum_units_le {created : ℚ} {grants : List Grant} (unbanked : Unbanked unitsPerSec created grants)
    (positive : 0 < unitsPerSec) (opening width : ℚ) (busy : inWindow grants opening width ≠ []) :
    ∃ request ∈ inWindow grants opening width,
      (((inWindow grants opening width).map units).sum : ℚ) ≤ unitsPerSec * width + request.units := by
  obtain ⟨front, last, window⟩ : ∃ front last, inWindow grants opening width = front ++ [last] :=
    ⟨_, _, (List.dropLast_append_getLast busy).symm⟩
  have within : ∀ grant ∈ inWindow grants opening width, opening ≤ grant.start ∧ grant.start ≤ opening + width := by
    intro grant member
    simpa using (List.mem_filter.mp member).2
  have inTurn : Slot.InTurn ((inWindow grants opening width).map (slot unitsPerSec)) :=
    unbanked.inTurn.sublist (List.filter_sublist.map _)
  rw [window] at within inTurn ⊢
  rw [List.map_append] at inTurn
  have fits : ((front.map (slot unitsPerSec)).map Slot.length).sum ≤ last.start - opening := by
    apply inTurn.sum_le
    intro slot member
    rw [← List.map_singleton, ← List.map_append] at member
    obtain ⟨grant, found, rfl⟩ := List.mem_map.mp member
    exact (within grant found).1
  have closes : last.start ≤ opening + width := (within last (by simp)).2
  have rate : (0 : ℚ) < unitsPerSec := by exact_mod_cast positive
  rw [sum_lengths, div_le_iff₀ rate] at fits
  have bound : ((front.map units).sum : ℚ) ≤ unitsPerSec * width := by
    calc ((front.map units).sum : ℚ)
        ≤ (last.start - opening) * unitsPerSec := fits
      _ ≤ width * unitsPerSec := by gcongr; exact sub_le_iff_le_add'.mpr closes
      _ = unitsPerSec * width := mul_comm _ _
  refine ⟨last, by simp, ?_⟩
  rw [List.map_append, List.sum_append, List.map_singleton, List.sum_singleton, Nat.cast_add]
  gcongr

end Grant

namespace RateLimiter

theorem start_eq_add_wait (limiter : RateLimiter) (now : ℚ) : limiter.start now = now + limiter.wait now := by
  have later : now ≤ limiter.start now := le_max_right _ _
  rw [wait, max_eq_right (sub_nonneg.mpr later), add_sub_cancel]

/-- A call for no units leaves the limiter as it is and does not wait. -/
theorem reserve_zero (limiter : RateLimiter) (now : ℚ) : limiter.reserve 0 now = (0, limiter) := by
  simp [reserve, passes]

end RateLimiter

namespace LimiterState

variable {Task : Type} [DecidableEq Task]

/-- The grants account for the cursor, and every call that was let through had no units or no rate. -/
structure Accounted (unitsPerSec : Nat) (created : ℚ) (state : LimiterState Task) : Prop where
  rate : state.limiter.unitsPerSec = unitsPerSec
  unbanked : Grant.Unbanked unitsPerSec created state.grants
  cursor : state.limiter.nextAvailable = Grant.cursor unitsPerSec created state.grants
  reserving : ∀ task units now, state.tasks task = .reserving units now → state.limiter.passes units = false
  paced : state.grants ≠ [] → 0 < unitsPerSec
  passed : ∀ units ∈ state.passed, 0 < unitsPerSec → units = 0

variable {unitsPerSec : Nat} {moment : ℚ} {state : LimiterState Task}

omit [DecidableEq Task] in
theorem accounted_created : Accounted unitsPerSec moment (created unitsPerSec moment : LimiterState Task) where
  rate := rfl
  unbanked := trivial
  cursor := rfl
  reserving := by intro task units now holds; cases holds
  paced := by intro granted; exact absurd rfl granted
  passed := by intro units member; cases member

/-- A task that is not left waiting for the lock keeps the account. -/
theorem Accounted.move (accounted : Accounted unitsPerSec moment state) (task : Task) {acquiring : Acquiring}
    (ready : ∀ units now, acquiring = .reserving units now → state.limiter.passes units = false) :
    Accounted unitsPerSec moment (state.move task acquiring) where
  rate := accounted.rate
  unbanked := accounted.unbanked
  cursor := accounted.cursor
  reserving := by
    intro other units now holds
    by_cases same : other = task
    · subst same
      exact ready units now (by simpa [LimiterState.move] using holds)
    · exact accounted.reserving other units now (by simpa [LimiterState.move, same] using holds)
  paced := accounted.paced
  passed := accounted.passed

theorem Accounted.grant (accounted : Accounted unitsPerSec moment state) {task : Task} {units : Nat} {now : ℚ}
    (holds : state.tasks task = .reserving units now) :
    Accounted unitsPerSec moment (state.grant task units now) := by
  have reserved : state.limiter.reserve units now = (state.limiter.wait now, state.limiter.advance units now) := by
    simp [RateLimiter.reserve, accounted.reserving task units now holds]
  have positive : 0 < unitsPerSec := by
    have guarded := accounted.reserving task units now holds
    rw [← accounted.rate]
    simp [RateLimiter.passes] at guarded
    omega
  have starts := state.limiter.start_eq_add_wait now
  have granted : Accounted unitsPerSec moment { state with
      limiter := state.limiter.advance units now
      grants := state.grants ++ [⟨units, now, state.limiter.wait now⟩] } := {
    rate := accounted.rate
    unbanked := by
      apply Grant.unbanked_append accounted.unbanked
      rw [← accounted.cursor]
      exact starts.symm
    cursor := by
      rw [Grant.cursor_append]
      show state.limiter.start now + units / state.limiter.unitsPerSec = _
      rw [starts, accounted.rate]
      rfl
    reserving := accounted.reserving
    paced := fun _ => positive
    passed := accounted.passed }
  rw [LimiterState.grant, reserved]
  apply granted.move
  intro units' now' sleeping
  split at sleeping <;> cases sleeping

/-- Every step keeps the account. -/
theorem Accounted.step (accounted : Accounted unitsPerSec moment state) {action : LimiterAction Task}
    {next : LimiterState Task} (stepped : state.step action = some next) : Accounted unitsPerSec moment next := by
  cases action with
  | tick elapsed =>
      obtain ⟨-, stepped⟩ := Option.ite_none_right_eq_some.mp stepped
      cases stepped
      exact { accounted with }
  | call task units =>
      simp only [LimiterState.step] at stepped
      split at stepped
      case h_1 idle =>
        by_cases passes : state.limiter.passes units
        · rw [if_pos passes] at stepped
          cases stepped
          refine { accounted with passed := ?_ }
          intro other member positive
          rcases List.mem_append.mp member with earlier | last
          · exact accounted.passed other earlier positive
          · rw [List.mem_singleton.mp last]
            simp [RateLimiter.passes, accounted.rate] at passes
            omega
        · rw [if_neg passes] at stepped
          cases stepped
          apply accounted.move
          intro units' now' reserving
          cases reserving
          simpa using passes
      case h_2 => cases stepped
  | lock task =>
      simp only [LimiterState.step] at stepped
      split at stepped
      case h_1 units now holds =>
        cases stepped
        exact accounted.grant holds
      case h_2 => cases stepped
  | wake task =>
      simp only [LimiterState.step] at stepped
      split at stepped
      case h_1 wake sleeping =>
        obtain ⟨-, stepped⟩ := Option.ite_none_right_eq_some.mp stepped
        cases stepped
        apply accounted.move
        intro units now reserving
        cases reserving
      case h_2 => cases stepped

theorem accounted_of_reaches (reached : (limiterMachine Task).Reaches (created unitsPerSec moment) state) :
    Accounted unitsPerSec moment state := by
  apply reached.invariant (Accounted unitsPerSec moment)
  · intro before after accounted step
    obtain ⟨action, -, stepped⟩ := step
    exact accounted.step stepped
  · exact accounted_created

/-- Grants follow one another at the rate, however late the readings of the clock come to the lock. -/
theorem grants_are_paced (Task : Type) [DecidableEq Task] (unitsPerSec : Nat) (moment : ℚ)
    (state : LimiterState Task) (reached : (limiterMachine Task).Reaches (created unitsPerSec moment) state) :
    Slot.InTurn (state.grants.map (Grant.slot unitsPerSec)) ∧
      (state.grants.map (Grant.slot unitsPerSec)).Pairwise
        (fun earlier later => Disjoint earlier.moments later.moments) ∧
      (∀ grant ∈ state.grants, grant.now ≤ grant.start) ∧
      Grant.Unbanked unitsPerSec moment state.grants ∧
      (∀ opening width, Grant.inWindow state.grants opening width ≠ [] →
        ∃ request ∈ Grant.inWindow state.grants opening width,
          (((Grant.inWindow state.grants opening width).map Grant.units).sum : ℚ) ≤
            unitsPerSec * width + request.units) ∧
      (0 < unitsPerSec → ∀ units ∈ state.passed, units = 0) ∧
      (∀ task next, state.step (.call task 0) = some next →
        next.limiter = state.limiter ∧ next.tasks = state.tasks ∧ next.grants = state.grants) ∧
      ∀ now, state.limiter.reserve 0 now = (0, state.limiter) := by
  have accounted := accounted_of_reaches reached
  have inTurn := accounted.unbanked.inTurn
  refine ⟨inTurn, inTurn.disjoint, fun grant member => accounted.unbanked.now_le member, accounted.unbanked,
    ?_, fun positive units member => accounted.passed units member positive, ?_, state.limiter.reserve_zero⟩
  · intro opening width busy
    have positive : 0 < unitsPerSec := by
      apply accounted.paced
      intro none
      simp [Grant.inWindow, none] at busy
    exact accounted.unbanked.sum_units_le positive opening width busy
  · intro task next stepped
    simp only [LimiterState.step, RateLimiter.passes] at stepped
    split at stepped
    · cases stepped
      exact ⟨rfl, rfl, rfl⟩
    · cases stepped

/-- Two tasks read the clock and take the lock in the other order, after a call for no units. -/
def overtaking : List (LimiterAction Bool) :=
  [.call true 0, .tick 1, .call true 5, .tick 1, .call false 10, .lock false, .lock true]

/-- The later reading is granted first, and the earlier one waits for both. -/
theorem grants_are_paced_overtaking :
    ∃ state : LimiterState Bool, (limiterMachine Bool).run (created 10 0) overtaking = some state ∧
      (state.grants.map fun grant => (grant.units, grant.now, grant.wait)) = [(10, 2, 0), (5, 1, 2)] ∧
      Slot.InTurn (state.grants.map (Grant.slot 10)) := by
  have seen : ((limiterMachine Bool).run (created 10 0) overtaking).map
      (fun state => state.grants.map fun grant => (grant.units, grant.now, grant.wait)) =
        some [(10, 2, 0), (5, 1, 2)] := by decide +kernel
  obtain ⟨state, ran, grants⟩ := Option.map_eq_some_iff.mp seen
  have paced := grants_are_paced Bool 10 0 state ((limiterMachine Bool).reaches_of_run (fun _ _ => trivial) ran)
  exact ⟨state, ran, grants, paced.1⟩

end LimiterState

end Spicebench.Util
