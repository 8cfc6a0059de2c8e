import Spicebench.Proof.Etl.Progress
import Spicebench.Proof.Etl.RunDelivery
import Spicebench.Proof.Etl.Termination

namespace Spicebench.Etl
open Library DataGeneration

variable {Table Key Data : Type} [DecidableEq Table]

omit [DecidableEq Table] in
theorem Environment.Healthy.mono {environment : Environment Table Key Data} {planned fewer : Table → Nat → Prop}
    (healthy : environment.Healthy planned)
    (subset : ∀ table batchId, fewer table batchId → planned table batchId) : environment.Healthy fewer :=
  ⟨fun table batchId outcome member => healthy.reads table batchId outcome (subset table batchId member),
    healthy.writes, healthy.flushes, healthy.calm⟩

/-- The first ids of an ascending list are the ones up to the boundary. -/
theorem mem_take_iff {ids : List Nat} (ascending : ids.Pairwise (· < ·)) {limit : Nat} (positive : limit ≠ 0)
    {batchId : Nat} :
    batchId ∈ ids.take limit ↔ batchId ∈ ids ∧ ∀ boundary ∈ ids[limit - 1]?, batchId ≤ boundary := by
  induction ids generalizing limit with
  | nil => simp
  | cons first rest ih =>
      obtain ⟨above, tail⟩ := List.pairwise_cons.mp ascending
      obtain ⟨more, rfl⟩ : ∃ more, limit = more + 1 := ⟨limit - 1, by omega⟩
      rw [List.take_succ_cons, List.mem_cons, List.mem_cons, Nat.add_sub_cancel]
      cases more with
      | zero =>
          simp only [List.take_zero, List.not_mem_nil, or_false, List.getElem?_cons_zero, Option.mem_def,
            Option.some.injEq, forall_eq']
          constructor
          · intro same
            exact ⟨.inl same, same.le⟩
          · rintro ⟨same | inside, upTo⟩
            · exact same
            · have := above batchId inside
              omega
      | succ more =>
          rw [ih tail (Nat.succ_ne_zero more), List.getElem?_cons_succ, Nat.succ_sub_one]
          constructor
          · rintro (same | ⟨inside, upTo⟩)
            · refine ⟨.inl same, fun boundary found => ?_⟩
              have := above boundary (List.mem_of_getElem? found)
              omega
            · exact ⟨.inr inside, upTo⟩
          · rintro ⟨same | inside, upTo⟩
            · exact .inl same
            · exact .inr ⟨inside, upTo⟩

/-- The plan at the start of a run, with no table finished. -/
def Shared.withPlan (shared : Shared Table Key Data) (plan : WorkPlan Table) : Shared Table Key Data :=
  { shared with work := ⟨plan, []⟩ }

/-- A run with a budget that has returned handed over the entries of the first keys of its plan. -/
theorem Segment.returned_keys {start : WorkPlan Table} {past : List (Event Table)}
    {shared : Shared Table Key Data} {run : RunTask Table Key Data}
    {limit : Nat} (segment : Segment (some limit) start past shared run) {outcome : PipelineState}
    (ended : run.phase = .returned outcome) :
    (outcome = if limit ≤ start.keys.length then .paused else .stopped .completed) ∧
    (∀ table batchId, batchId ∈ handedSince past shared table ↔
      start.Pending table batchId ∧ batchId ∈ start.keys.take limit) ∧
    ∀ table batchId, shared.work.steps.Pending table batchId ↔
      start.Pending table batchId ∧ batchId ∉ start.keys.take limit := by
  obtain ⟨outcomeIs, handed, pending⟩ := segment.returned ended
  have nonzero : limit ≠ 0 := by
    intro zero
    exact segment.positive (by rw [zero])
  have boundary : checkpointMaxBatchId start (some limit) = start.keys[limit - 1]? := rfl
  rw [boundary] at outcomeIs handed pending
  have member : ∀ {table batchId}, start.Pending table batchId → (batchId ∈ start.keys.take limit ↔
      ∀ boundary ∈ start.keys[limit - 1]?, batchId ≤ boundary) := by
    intro table batchId planned
    rw [mem_take_iff start.keys_ascending nonzero]
    exact and_iff_right (WorkPlan.mem_keys_iff.mpr ⟨table, planned⟩)
  refine ⟨?_, ?_, ?_⟩
  · rw [outcomeIs]
    by_cases enough : limit ≤ start.keys.length
    · have inside : limit - 1 < start.keys.length := by omega
      simp [enough, inside]
    · have outside : start.keys.length ≤ limit - 1 := by omega
      simp [enough, outside]
  · intro table batchId
    rw [handed]
    exact and_congr_right fun planned => (member planned).symm
  · intro table batchId
    rw [pending]
    apply and_congr_right
    intro planned
    rw [member planned]
    push Not
    rfl

/-- The pipeline has paused this many times, each time after a run with the same budget. -/
inductive PausedAfter (config : EtlConfig Key Data) (environment : Environment Table Key Data) (limit : Nat)
    (start : Shared Table Key Data) : Nat → Shared Table Key Data → Prop where
  | fresh : PausedAfter config environment limit start 0 start
  | pause {pauses : Nat} {shared final : Shared Table Key Data} {run : RunTask Table Key Data}
      (before : PausedAfter config environment limit start pauses shared)
      (reached : (runMachine config environment).Reaches (shared, .spawn (some limit)) (final, run))
      (paused : run.phase = .returned .paused) :
      PausedAfter config environment limit start (pauses + 1) final

omit [DecidableEq Table] in
/-- A plan that keeps the entries beyond the first keys has the remaining keys. -/
theorem keys_eq_drop {start plan : WorkPlan Table} {count : Nat}
    (remaining : ∀ table batchId, plan.Pending table batchId ↔
      start.Pending table batchId ∧ batchId ∉ start.keys.take count) :
    plan.keys = start.keys.drop count := by
  have dropped : (start.keys.drop count).Pairwise (· < ·) :=
    start.keys_ascending.sublist (List.drop_sublist _ _)
  have apart : ∀ batchId ∈ start.keys.drop count, batchId ∉ start.keys.take count := by
    intro batchId later earlier
    have order := start.keys_ascending
    rw [← List.take_append_drop count start.keys, List.pairwise_append] at order
    exact lt_irrefl batchId (order.2.2 batchId earlier batchId later)
  have members : ∀ batchId, batchId ∈ plan.keys ↔ batchId ∈ start.keys.drop count := by
    intro batchId
    rw [WorkPlan.mem_keys_iff]
    constructor
    · intro pending
      obtain ⟨table, pending⟩ := pending
      obtain ⟨planned, later⟩ := (remaining table batchId).mp pending
      have key := WorkPlan.mem_keys_iff.mpr ⟨table, planned⟩
      rw [← List.take_append_drop count start.keys, List.mem_append] at key
      exact key.resolve_left later
    · intro later
      obtain ⟨table, planned⟩ := WorkPlan.mem_keys_iff.mp (List.mem_of_mem_drop later)
      exact ⟨table, (remaining table batchId).mpr ⟨planned, apart batchId later⟩⟩
  have perm : plan.keys.Perm (start.keys.drop count) :=
    (List.perm_ext_iff_of_nodup (plan.keys_ascending.imp Nat.ne_of_lt) (dropped.imp Nat.ne_of_lt)).mpr members
  exact perm.eq_of_pairwise (fun _ _ _ _ before after => absurd (before.trans after) (lt_irrefl _))
    plan.keys_ascending dropped

/-- At each pause, exactly the entries of the first intervals were handed over. -/
theorem pausedAfter_handed {config : EtlConfig Key Data} {environment : Environment Table Key Data}
    {limit : Nat} (positive : limit ≠ 0) {start final : Shared Table Key Data}
    (unfinished : start.work.finishedTables = []) (healthy : environment.Healthy start.work.steps.Pending)
    {pauses : Nat} (paused : PausedAfter config environment limit start pauses final) :
    start.history <+: final.history ∧ final.work.finishedTables = [] ∧
    (∀ table batchId, batchId ∈ handedSince start.history final table ↔
      start.work.steps.Pending table batchId ∧ batchId ∈ start.work.steps.keys.take (pauses * limit)) ∧
    ∀ table batchId, final.work.steps.Pending table batchId ↔
      start.work.steps.Pending table batchId ∧ batchId ∉ start.work.steps.keys.take (pauses * limit) := by
  induction paused with
  | fresh => simp [handedSince, unfinished]
  | @pause pauses shared final run before reached ended ih =>
      obtain ⟨grown, open_, handed, pending⟩ := ih
      have segment := Segment.spawn shared open_ (show some limit ≠ some 0 by simpa using positive)
      have calm : environment.Healthy shared.work.steps.Pending :=
        healthy.mono fun table batchId member => ((pending table batchId).mp member).1
      have done := Segment.reached calm reached segment
      obtain ⟨_, more, left⟩ := done.returned_keys ended
      have keys := keys_eq_drop pending
      have split : ∀ batchId, batchId ∈ start.work.steps.keys.take ((pauses + 1) * limit) ↔
          batchId ∈ start.work.steps.keys.take (pauses * limit) ∨ batchId ∈ shared.work.steps.keys.take limit := by
        intro batchId
        rw [Nat.succ_mul, List.take_add, List.mem_append, keys]
      refine ⟨grown.trans done.ledger.grown, done.healthy.1, ?_, ?_⟩
      · intro table batchId
        rw [handedSince_trans grown done.ledger.grown, List.mem_append, handed, more, pending, split]
        by_cases early : batchId ∈ start.work.steps.keys.take (pauses * limit) <;> simp [early]
      · intro table batchId
        rw [left, pending, split]
        tauto

/-- The checkpoint boundaries do not depend on the schedule. Every schedule of a run with a budget is
finite and ends by returning; a run that has returned handed over and wrote exactly the entries of the
smallest keys and left exactly the others; and two runs over the same entries agree at each pause. -/
theorem checkpoint_boundaries_deterministic (config : EtlConfig Key Data)
    (environment : Environment Table Key Data) (shared : Shared Table Key Data) (plan : WorkPlan Table)
    {limit : Nat} (positive : 1 ≤ limit) (healthy : environment.Healthy plan.Pending)
    (responds : environment.Responds plan.Pending) :
    (runMachine config environment).Terminates (shared.withPlan plan, .spawn (some limit)) ∧
    (∀ final, (runMachine config environment).Reaches (shared.withPlan plan, .spawn (some limit)) final →
      (runMachine config environment).Stuck final → final.2.Returned) ∧
    (∀ final outcome,
      (runMachine config environment).Reaches (shared.withPlan plan, .spawn (some limit)) final →
      final.2.phase = .returned outcome →
      (outcome = if limit ≤ plan.keys.length then .paused else .stopped .completed) ∧
      (∀ table, (handedSince shared.history final.1 table).Pairwise (· < ·)) ∧
      (∀ table batchId, batchId ∈ handedSince shared.history final.1 table ↔
        plan.Pending table batchId ∧ batchId ∈ plan.keys.take limit) ∧
      (∀ table batchId, final.1.work.steps.Pending table batchId ↔
        plan.Pending table batchId ∧ batchId ∉ plan.keys.take limit) ∧
      ∀ source, environment.Serves source plan.Pending → ∀ table,
        (sinkRows table final.1.sink).Perm (sinkRows table shared.sink ++ stripInternalColumns
          ((handedSince shared.history final.1 table).flatMap (source.rows table)))) ∧
    ∀ (otherConfig : EtlConfig Key Data) (otherEnvironment : Environment Table Key Data)
      (otherShared : Shared Table Key Data) (otherPlan : WorkPlan Table),
      otherEnvironment.Healthy otherPlan.Pending →
      (∀ table batchId, plan.Pending table batchId ↔ otherPlan.Pending table batchId) →
      ∀ pauses final otherFinal,
        PausedAfter config environment limit (shared.withPlan plan) pauses final →
        PausedAfter otherConfig otherEnvironment limit (otherShared.withPlan otherPlan) pauses otherFinal →
        ∀ table batchId, batchId ∈ handedSince shared.history final table ↔
          batchId ∈ handedSince otherShared.history otherFinal table := by
  have nonzero : limit ≠ 0 := by omega
  have segment := Segment.spawn (shared.withPlan plan) rfl (show some limit ≠ some 0 by simpa using nonzero)
  refine ⟨run_terminates config environment _ _ trivial, ?_, ?_, ?_⟩
  · intro final reached stuck
    exact (Segment.reached healthy reached segment).progress responds stuck
  · intro final outcome reached ended
    have done := Segment.reached healthy reached segment
    obtain ⟨outcomeIs, handed, pending⟩ := done.returned_keys ended
    refine ⟨outcomeIs, ?_, handed, pending, ?_⟩
    · intro table
      exact (List.pairwise_append.mp (done.ledger.ascending table)).1
    · intro source serves
      have start := RunDelivered.spawn config source (shared.withPlan plan) (some limit)
      exact ((Segment.delivered healthy serves reached segment start).returned ended).1
  · intro otherConfig otherEnvironment otherShared otherPlan otherHealthy same pauses final otherFinal
      paused otherPaused table batchId
    obtain ⟨_, _, handed, _⟩ := pausedAfter_handed nonzero rfl healthy paused
    obtain ⟨_, _, otherHanded, _⟩ := pausedAfter_handed nonzero rfl otherHealthy otherPaused
    have keys : plan.keys = otherPlan.keys := by
      have none := @keys_eq_drop _ otherPlan plan 0 (by simpa using same)
      rwa [List.drop_zero] at none
    have mine := handed table batchId
    have other := otherHanded table batchId
    simp only [Shared.withPlan] at mine other
    rw [mine, other, keys, same]

/-- A source with one row for each batch, which never fails. -/
def sampleEnvironment : Environment Unit Nat Unit where
  reads _ batchId outcome :=
    outcome = .ok (some ⟨[⟨changeSchema, [⟨batchId, (), some .create, 0⟩]⟩], ["key"]⟩)
  writeFails _ _ _ := False
  flushFails _ := False
  cancels := False

def sampleConfig : EtlConfig Nat Unit where
  targetBatchRows := 10
  targetPositive := by decide
  sinkChunkRows := 0
  mutations := ⟨.finite 0, .finite 0, false, 0, .finite 0⟩
  opIndexSort := .stable

def samplePlan : WorkPlan Unit := (WorkPlan.push .empty () 0).push () 1

theorem sampleEnvironment_healthy (planned : Unit → Nat → Prop) : sampleEnvironment.Healthy planned := by
  constructor
  · intro _ batchId outcome _ read
    exact ⟨_, read, by simp⟩
  · exact fun _ _ _ => id
  · exact fun _ => id
  · exact id

/-- With a budget of one step the second batch waits, although one read loop could take both. -/
theorem checkpoint_boundaries_two_steps :
    ∃ final, (runMachine sampleConfig sampleEnvironment).Reaches
        (Shared.withPlan ⟨⟨.empty, []⟩, fun _ => none, [], []⟩ samplePlan, .spawn (some 1)) final ∧
      final.2.phase = .returned .paused ∧
      (∀ batchId, batchId ∈ handedSince [] final.1 () ↔ batchId = 0) ∧
      ∀ batchId, final.1.work.steps.Pending () batchId ↔ batchId = 1 := by
  obtain ⟨terminates, returns, results, _⟩ := checkpoint_boundaries_deterministic sampleConfig
    sampleEnvironment ⟨⟨.empty, []⟩, fun _ => none, [], []⟩ samplePlan le_rfl
    (sampleEnvironment_healthy _) (fun _ _ _ => ⟨_, rfl⟩)
  obtain ⟨final, reached, stuck⟩ := terminates.exists_stuck
  obtain ⟨outcome, ended⟩ := returns final reached stuck
  obtain ⟨outcomeIs, _, handed, pending, _⟩ := results final outcome reached ended
  have planned : ∀ batchId, samplePlan.Pending () batchId ↔ batchId = 1 ∨ batchId = 0 := by
    intro batchId
    simp [samplePlan, WorkPlan.pending_push]
  have keys : samplePlan.keys.take 1 = [0] := rfl
  have length : samplePlan.keys.length = 2 := rfl
  rw [length] at outcomeIs
  refine ⟨final, reached, ?_, ?_, ?_⟩
  · rw [ended, outcomeIs]
    rfl
  · intro batchId
    rw [handed, planned, keys, List.mem_singleton]
    omega
  · intro batchId
    rw [pending, planned, keys, List.mem_singleton]
    omega

end Spicebench.Etl
