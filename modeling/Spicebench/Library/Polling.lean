import Mathlib.Order.Monotone.Basic

namespace Spicebench.Library

/-- All times count nanoseconds. -/
def millis (count : Nat) : Nat := count * 1000000

/-- A poll decides a wait, or it asks for a pause before the next poll. -/
inductive Verdict (Result : Type) where
  | decided (result : Result)
  | again (pause : Nat)

def Verdict.pause {Result : Type} : Verdict Result → Nat
  | .decided _ => 0
  | .again pause => pause

/-- Each poll of a wait has its verdict and takes its time. -/
structure Polling (Result : Type) where
  verdict : Nat → Verdict Result
  latency : Nat → Nat

/-- A wait that gave up has no result. -/
structure Ended (Result : Type) where
  result : Option Result
  polls : Nat
  clock : Nat
  deriving DecidableEq, Repr

namespace Polling

variable {Result : Type} (polling : Polling Result) (limit : Nat)

/-- The polls go on until one decides, or one would start after the limit. -/
def loop : Nat → Nat → Nat → Option (Ended Result)
  | 0, _, _ => none
  | fuel + 1, index, clock =>
      if limit < clock then some ⟨none, index, clock⟩
      else match polling.verdict index with
        | .decided result => some ⟨some result, index + 1, clock + polling.latency index⟩
        | .again pause => loop fuel (index + 1) (clock + polling.latency index + pause)

def wait (fuel : Nat) : Option (Ended Result) := polling.loop limit fuel 0 0

/-- A poll starts at this time if none before it decides. -/
def clock : Nat → Nat
  | 0 => 0
  | index + 1 => clock index + polling.latency index + (polling.verdict index).pause

theorem clock_succ (index : Nat) :
    polling.clock (index + 1) = polling.clock index + polling.latency index + (polling.verdict index).pause := rfl

theorem clock_mono : Monotone polling.clock := by
  apply monotone_nat_of_le_succ
  intro index
  rw [clock_succ]
  omega

/-- No poll before this one decides or starts too late. -/
def Goes (index : Nat) : Prop :=
  ∀ earlier < index, polling.clock earlier ≤ limit ∧ ∃ pause, polling.verdict earlier = .again pause

theorem loop_of_goes {index : Nat} (goes : polling.Goes limit index) (fuel : Nat) :
    polling.wait limit (index + fuel) = polling.loop limit fuel index (polling.clock index) := by
  induction index generalizing fuel with
  | zero => rw [Nat.zero_add]; rfl
  | succ index ih =>
      obtain ⟨early, pause, again⟩ := goes index (Nat.lt_succ_self index)
      have before : polling.Goes limit index := fun earlier less => goes earlier (Nat.lt_succ_of_lt less)
      rw [Nat.add_right_comm, Nat.add_assoc, ih before, loop, if_neg (Nat.not_lt.mpr early), again, clock_succ, again]
      rfl

/-- The wait ends with the first poll that decides, if it starts in time. -/
theorem wait_decided {index : Nat} {result : Result} (goes : polling.Goes limit index)
    (early : polling.clock index ≤ limit) (decided : polling.verdict index = .decided result) (fuel : Nat) :
    polling.wait limit (index + (fuel + 1)) =
      some ⟨some result, index + 1, polling.clock index + polling.latency index⟩ := by
  rw [polling.loop_of_goes limit goes, loop, if_neg (Nat.not_lt.mpr early), decided]

/-- The wait gives up at the first poll that would start too late. -/
theorem wait_gaveUp {index : Nat} (goes : polling.Goes limit index) (late : limit < polling.clock index)
    (fuel : Nat) : polling.wait limit (index + (fuel + 1)) = some ⟨none, index, polling.clock index⟩ := by
  rw [polling.loop_of_goes limit goes, loop, if_pos late]

/-- A wait that ends stops at some poll that all others lead to. -/
inductive Stops : Ended Result → Prop where
  | decided {index : Nat} {result : Result} (goes : polling.Goes limit index) (early : polling.clock index ≤ limit)
      (decided : polling.verdict index = .decided result) :
      Stops ⟨some result, index + 1, polling.clock index + polling.latency index⟩
  | gaveUp {index : Nat} (goes : polling.Goes limit index) (late : limit < polling.clock index) :
      Stops ⟨none, index, polling.clock index⟩

theorem stops_of_loop {fuel index : Nat} {ended : Ended Result} (goes : polling.Goes limit index)
    (ran : polling.loop limit fuel index (polling.clock index) = some ended) : polling.Stops limit ended := by
  induction fuel generalizing index with
  | zero => exact nomatch ran
  | succ fuel ih =>
      rw [loop] at ran
      by_cases late : limit < polling.clock index
      · rw [if_pos late] at ran
        obtain rfl := Option.some.inj ran
        exact .gaveUp goes late
      · rw [if_neg late] at ran
        have early := Nat.not_lt.mp late
        cases answer : polling.verdict index with
        | decided result =>
            rw [answer] at ran
            obtain rfl := Option.some.inj ran
            exact .decided goes early answer
        | again pause =>
            rw [answer] at ran
            refine @ih (index + 1) ?_ ?_
            · intro earlier less
              obtain less | rfl := Nat.lt_succ_iff_lt_or_eq.mp less
              · exact goes earlier less
              · exact ⟨early, pause, answer⟩
            · rw [clock_succ, answer]
              exact ran

theorem stops_of_wait {fuel : Nat} {ended : Ended Result} (ran : polling.wait limit fuel = some ended) :
    polling.Stops limit ended :=
  polling.stops_of_loop limit (fun _ less => absurd less (Nat.not_lt_zero _)) ran

theorem Goes.pred {index : Nat} (goes : polling.Goes limit (index + 1)) : polling.Goes limit index :=
  fun earlier less => goes earlier (Nat.lt_succ_of_lt less)

/-- Every pause of a paced wait has at least some length. -/
def Paced (least : Nat) : Prop := ∀ index pause, polling.verdict index = .again pause → least ≤ pause

variable {polling limit}

/-- More fuel than polls gives the same end. -/
theorem Stops.wait_eq {ended : Ended Result} (stops : polling.Stops limit ended) {fuel : Nat}
    (enough : ended.polls < fuel) : polling.wait limit fuel = some ended := by
  cases stops with
  | @decided index result goes early decided =>
      obtain ⟨rest, rfl⟩ := Nat.exists_eq_add_of_lt (Nat.lt_of_succ_lt enough)
      exact polling.wait_decided limit goes early decided rest
  | gaveUp goes late =>
      obtain ⟨rest, rfl⟩ := Nat.exists_eq_add_of_lt enough
      exact polling.wait_gaveUp limit goes late rest

theorem Goes.clock_le {least index : Nat} (paced : polling.Paced least) (goes : polling.Goes limit index) :
    index * least ≤ polling.clock index := by
  induction index with
  | zero => rw [Nat.zero_mul]; exact Nat.zero_le _
  | succ index ih =>
      obtain ⟨_, pause, again⟩ := goes index (Nat.lt_succ_self index)
      have before := ih goes.pred
      have enough := paced index pause again
      rw [clock_succ, again, Nat.succ_mul, Verdict.pause]
      omega

/-- The polls of a paced wait fit into its limit. -/
theorem Goes.index_le {least index : Nat} (positive : 0 < least) (paced : polling.Paced least)
    (goes : polling.Goes limit index) : index ≤ limit / least + 1 := by
  cases index with
  | zero => exact Nat.zero_le _
  | succ index =>
      obtain ⟨early, _⟩ := goes index (Nat.lt_succ_self index)
      have before := Goes.clock_le paced goes.pred
      exact Nat.succ_le_succ ((Nat.le_div_iff_mul_le positive).mpr (before.trans early))

theorem Stops.polls_le {least : Nat} {ended : Ended Result} (positive : 0 < least) (paced : polling.Paced least)
    (stops : polling.Stops limit ended) : ended.polls ≤ limit / least + 1 := by
  cases stops with
  | decided goes early _ =>
      have before := Goes.clock_le paced goes
      exact Nat.succ_le_succ ((Nat.le_div_iff_mul_le positive).mpr (before.trans early))
  | gaveUp goes _ => exact goes.index_le positive paced

variable (polling limit) in
/-- Either some poll is the last one, or the polls go on. -/
theorem goes_or_last (index : Nat) : polling.Goes limit index ∨ ∃ last < index, polling.Goes limit last ∧
    (limit < polling.clock last ∨ ∃ result, polling.verdict last = .decided result) := by
  induction index with
  | zero => exact .inl fun _ less => absurd less (Nat.not_lt_zero _)
  | succ index ih =>
      obtain goes | ⟨last, less, ending⟩ := ih
      · by_cases late : limit < polling.clock index
        · exact .inr ⟨index, Nat.lt_succ_self index, goes, .inl late⟩
        · cases answer : polling.verdict index with
          | decided result => exact .inr ⟨index, Nat.lt_succ_self index, goes, .inr ⟨result, answer⟩⟩
          | again pause =>
              refine .inl ?_
              intro earlier less
              obtain less | rfl := Nat.lt_succ_iff_lt_or_eq.mp less
              · exact goes earlier less
              · exact ⟨Nat.not_lt.mp late, pause, answer⟩
      · exact .inr ⟨last, Nat.lt_succ_of_lt less, ending⟩

/-- A wait ends in one way only. -/
theorem Stops.unique {first second : Ended Result} (one : polling.Stops limit first)
    (other : polling.Stops limit second) : first = second := by
  have ran := one.wait_eq (Nat.lt_succ_of_le (Nat.le_max_left first.polls second.polls))
  have same := other.wait_eq (Nat.lt_succ_of_le (Nat.le_max_right first.polls second.polls))
  exact Option.some.inj (ran.symm.trans same)

/-- A wait ends if its polls cannot go on forever. -/
theorem exists_stops_of_le {most : Nat} (bounded : ∀ index, polling.Goes limit index → index ≤ most) :
    ∃ ended, polling.Stops limit ended := by
  obtain goes | ⟨last, _, goes, late | ⟨result, decided⟩⟩ := polling.goes_or_last limit (most + 1)
  · exact absurd (bounded _ goes) (Nat.not_succ_le_self most)
  · exact ⟨_, .gaveUp goes late⟩
  · by_cases late : limit < polling.clock last
    · exact ⟨_, .gaveUp goes late⟩
    · exact ⟨_, .decided goes (Nat.not_lt.mp late) decided⟩

variable (limit) in
/-- A paced wait ends, however the polls answer. -/
theorem exists_stops {least : Nat} (positive : 0 < least) (paced : polling.Paced least) :
    ∃ ended, polling.Stops limit ended :=
  exists_stops_of_le fun _ goes => goes.index_le positive paced

/-- A wait has a result exactly if some poll in time is the first to decide, and decides on it. -/
theorem Stops.result_iff {ended : Ended Result} (stops : polling.Stops limit ended) (result : Result) :
    ended.result = some result ↔ ∃ last, polling.clock last ≤ limit ∧ polling.verdict last = .decided result ∧
      ∀ earlier < last, ∃ pause, polling.verdict earlier = .again pause := by
  constructor
  · intro found
    cases stops with
    | gaveUp => exact nomatch found
    | @decided last other goes early decided =>
        obtain rfl := Option.some.inj found
        exact ⟨last, early, decided, fun earlier less => (goes earlier less).2⟩
  · rintro ⟨last, early, decided, others⟩
    have goes : polling.Goes limit last := by
      intro earlier less
      exact ⟨(polling.clock_mono less.le).trans early, others earlier less⟩
    rw [stops.unique (.decided goes early decided)]

section Settling

/-- What the polls watch settles at some time: the polls after it find the result, and those before it do not. -/
structure Settles (polling : Polling Result) (time : Nat) (result : Result) : Prop where
  before : ∀ index, polling.clock index + polling.latency index < time →
    ∃ pause, polling.verdict index = .again pause
  after : ∀ index, time ≤ polling.clock index → polling.verdict index = .decided result
  only : ∀ index found, polling.verdict index = .decided found → found = result

variable {time : Nat} {result : Result}

/-- A wait returns nothing but the result, and not before it is there. -/
theorem Settles.sound (settles : polling.Settles time result) {found : Result} {polls clock : Nat}
    (stops : polling.Stops limit ⟨some found, polls, clock⟩) : found = result ∧ time ≤ clock := by
  cases stops with
  | @decided index _ goes early decided =>
      refine ⟨settles.only index found decided, ?_⟩
      by_contra less
      obtain ⟨pause, again⟩ := settles.before index (Nat.not_le.mp less)
      exact nomatch decided.symm.trans again

/-- A poll that does not decide starts before the result is there. -/
theorem Settles.clock_lt (settles : polling.Settles time result) {index pause : Nat}
    (again : polling.verdict index = .again pause) : polling.clock index < time := by
  by_contra late
  exact nomatch again.symm.trans (settles.after index (Nat.not_lt.mp late))

/-- The last pause of a wait starts before the result is there. -/
theorem Settles.stops_le (settles : polling.Settles time result) {most slow : Nat} {ended : Ended Result}
    (brisk : ∀ index, polling.latency index ≤ slow)
    (pauses : ∀ index pause, polling.Goes limit index → polling.verdict index = .again pause →
      polling.clock index < time → pause ≤ most)
    (stops : polling.Stops limit ended) :
    (ended.result = none → limit < time + slow + most) ∧
      (ended.result ≠ none → ended.clock ≤ time + slow + most + slow) := by
  have start : ∀ index, polling.Goes limit index → polling.clock index ≤ time + slow + most := by
    intro index goes
    cases index with
    | zero => exact Nat.zero_le _
    | succ index =>
        obtain ⟨_, pause, again⟩ := goes index (Nat.lt_succ_self index)
        have first := settles.clock_lt again
        have second := brisk index
        have third := pauses index pause goes.pred again first
        rw [clock_succ, again, Verdict.pause]
        omega
  cases stops with
  | @decided index _ goes _ _ =>
      refine ⟨fun gave => absurd gave (Option.some_ne_none _), fun _ => ?_⟩
      have first := start index goes
      have second := brisk index
      change polling.clock index + polling.latency index ≤ _
      omega
  | gaveUp goes late => exact ⟨fun _ => lt_of_lt_of_le late (start _ goes), fun found => absurd rfl found⟩

/-- A paced wait finds a result that is there well before the limit, and finds it soon. -/
theorem Settles.found (settles : polling.Settles time result) {least most slow : Nat} (positive : 0 < least)
    (paced : polling.Paced least) (brisk : ∀ index, polling.latency index ≤ slow)
    (pauses : ∀ index pause, polling.Goes limit index → polling.verdict index = .again pause →
      polling.clock index < time → pause ≤ most)
    (room : time + slow + most ≤ limit) :
    ∃ polls clock, polling.Stops limit ⟨some result, polls, clock⟩ ∧ time ≤ clock ∧
      clock ≤ time + slow + most + slow := by
  obtain ⟨⟨found, polls, clock⟩, stops⟩ := exists_stops limit positive paced
  obtain ⟨gave, soon⟩ := settles.stops_le brisk pauses stops
  cases found with
  | none =>
      have := gave rfl
      omega
  | some found =>
      obtain ⟨rfl, late⟩ := settles.sound stops
      exact ⟨polls, clock, stops, late, soon (Option.some_ne_none _)⟩

end Settling

end Polling

end Spicebench.Library
