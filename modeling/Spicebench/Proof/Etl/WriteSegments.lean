import Spicebench.Construction.Etl.WriteSegments
import Spicebench.Proof.Etl.Segments

namespace Spicebench.Etl
open Library

variable {Key Data : Type}

namespace WriteEvent

def segment : WriteEvent Key Data → Nat
  | .began segment _ => segment
  | .applied segment _ _ _ => segment
  | .completed segment _ => segment

def begun? : WriteEvent Key Data → Option Nat
  | .began _ chunk => some chunk
  | _ => none

def completed? : WriteEvent Key Data → Option Nat
  | .completed _ chunk => some chunk
  | _ => none

/-- The row that was applied, with its operation and its timestamp. -/
def row? : WriteEvent Key Data → Option (InsertOp × (Key × Data) × Int)
  | .applied _ op row createdAt => some (op, row, createdAt)
  | _ => none

end WriteEvent

/-- The block of a segment that was written: its events are those of the segment, each of its rows was applied
once with its operation and the timestamp of the batch, and each chunk was begun and completed once. -/
structure Written (limits : SinkLimits) (batchTs : Int) (index : Nat) (segment : OpSegment Key Data)
    (block : List (WriteEvent Key Data)) : Prop where
  own : ∀ event ∈ block, event.segment = index
  rows : (block.filterMap WriteEvent.row?).Perm (segment.rows.map fun row => (segment.op, row, batchTs))
  chunks : ∀ chunk < (sinkChunks limits.sinkChunkRows segment).length,
    (block.filterMap WriteEvent.begun?).count chunk = 1 ∧ (block.filterMap WriteEvent.completed?).count chunk = 1

/-- The task still has to see these rows applied. -/
def ChunkTask.unapplied (task : ChunkTask Key Data) : List (Key × Data) :=
  match task.phase with
  | .waiting => task.rows
  | .permitted => task.rows
  | .writing rest => rest
  | .failed _ rest => rest
  | .done => []
  | .joined => []

/-- A task in this phase has begun and completed its chunk so many times. -/
def ChunkPhase.Marks (began completed : Nat) : ChunkPhase Key Data → Prop
  | .waiting => began = 0 ∧ completed = 0
  | .permitted => began = 0 ∧ completed = 0
  | .writing _ => began = 1 ∧ completed = 0
  | .failed _ _ => True
  | .done => began = 1 ∧ completed = 1
  | .joined => began = 1 ∧ completed = 1

/-- The block of the segment that is being written: the rows that were applied and those that its tasks still
hold are together the rows of the segment. -/
structure Progressing (batchTs : Int) (index : Nat) (segment : OpSegment Key Data) (block : List (WriteEvent Key Data))
    (tasks : List (ChunkTask Key Data)) : Prop where
  own : ∀ event ∈ block, event.segment = index
  rows : (block.filterMap WriteEvent.row? ++
      (tasks.flatMap ChunkTask.unapplied).map fun row => (segment.op, row, batchTs)).Perm
    (segment.rows.map fun row => (segment.op, row, batchTs))
  marks : ∀ (chunk : Nat) (task : ChunkTask Key Data), tasks[chunk]? = some task →
    task.phase.Marks ((block.filterMap WriteEvent.begun?).count chunk) ((block.filterMap WriteEvent.completed?).count chunk)

/-- A list is cut at a position, and only the element there is modified. -/
theorem exists_modify {Item : Type} {items : List Item} {position : Nat} {item : Item}
    (found : items[position]? = some item) :
    ∃ before after, items = before ++ item :: after ∧ before.length = position ∧
      ∀ change, items.modify position change = before ++ change item :: after := by
  induction items generalizing position with
  | nil => simp at found
  | cons first rest ih =>
      cases position with
      | zero =>
          obtain rfl : first = item := by simpa using found
          exact ⟨[], rest, rfl, rfl, fun _ => rfl⟩
      | succ position =>
          obtain ⟨before, after, rfl, length, modified⟩ := ih (by simpa using found)
          refine ⟨first :: before, after, rfl, by simp [length], ?_⟩
          intro change
          rw [List.modify_succ_cons, modified, List.cons_append]

section Chunks

variable {limits : SinkLimits} {batchTs : Int} {index : Nat} {segment : OpSegment Key Data}
  {block : List (WriteEvent Key Data)} {tasks : List (ChunkTask Key Data)}

/-- A task moves on and records events about its own chunk, which account for the rows it no longer holds. -/
theorem Progressing.advance (underway : Progressing batchTs index segment block tasks) {chunk : Nat}
    {task : ChunkTask Key Data} (found : tasks[chunk]? = some task) (phase : ChunkPhase Key Data)
    (events : List (WriteEvent Key Data)) (own : ∀ event ∈ events, event.segment = index)
    (rows : (events.filterMap WriteEvent.row? ++
        (ChunkTask.unapplied ⟨task.rows, phase⟩).map fun row => (segment.op, row, batchTs)).Perm
      (task.unapplied.map fun row => (segment.op, row, batchTs)))
    (begun : ∀ other ∈ events.filterMap WriteEvent.begun?, other = chunk)
    (completed : ∀ other ∈ events.filterMap WriteEvent.completed?, other = chunk)
    (marks : ∀ began complete, task.phase.Marks began complete →
      phase.Marks (began + (events.filterMap WriteEvent.begun?).length)
        (complete + (events.filterMap WriteEvent.completed?).length)) :
    Progressing batchTs index segment (block ++ events)
      (tasks.modify chunk fun task => { task with phase }) := by
  obtain ⟨before, after, cut, length, modified⟩ := exists_modify found
  constructor
  · intro event member
    rcases List.mem_append.mp member with old | new
    · exact underway.own event old
    · exact own event new
  · have whole := underway.rows
    rw [modified]
    rw [cut] at whole
    simp only [List.filterMap_append, List.flatMap_append, List.flatMap_cons, List.map_append] at whole ⊢
    refine List.Perm.trans ?_ whole
    -- The recorded rows and those that the task keeps take the place of the rows it has held.
    rw [List.append_assoc]
    refine List.Perm.append_left _ ?_
    have swapped := (List.perm_append_comm_assoc (events.filterMap WriteEvent.row?)
      ((before.flatMap ChunkTask.unapplied).map fun row => (segment.op, row, batchTs))
      (((ChunkTask.unapplied ⟨task.rows, phase⟩).map fun row => (segment.op, row, batchTs)) ++
        (after.flatMap ChunkTask.unapplied).map fun row => (segment.op, row, batchTs)))
    refine swapped.trans ?_
    refine List.Perm.append_left _ ?_
    rw [← List.append_assoc]
    exact rows.append_right _
  · intro other changed located
    simp only [List.filterMap_append, List.count_append]
    by_cases same : other = chunk
    · subst same
      rw [List.getElem?_modify_eq, found] at located
      obtain rfl : ({ task with phase } : ChunkTask Key Data) = changed := by simpa using located
      have beganHere : (events.filterMap WriteEvent.begun?).count other = (events.filterMap WriteEvent.begun?).length :=
        List.count_eq_length.mpr fun event member => (begun event member).symm
      have completedHere : (events.filterMap WriteEvent.completed?).count other =
          (events.filterMap WriteEvent.completed?).length :=
        List.count_eq_length.mpr fun event member => (completed event member).symm
      rw [beganHere, completedHere]
      exact marks _ _ (underway.marks other task found)
    · have kept : tasks[other]? = some changed := by
        simpa [List.getElem?_modify, Ne.symm same] using located
      have beganNot : (events.filterMap WriteEvent.begun?).count other = 0 :=
        List.count_eq_zero.mpr fun member => same (begun other member)
      have completedNot : (events.filterMap WriteEvent.completed?).count other = 0 :=
        List.count_eq_zero.mpr fun member => same (completed other member)
      rw [beganNot, completedNot, Nat.add_zero, Nat.add_zero]
      exact underway.marks other changed kept

/-- The tasks of a segment start with all of its rows. -/
theorem Progressing.start (limits : SinkLimits) (batchTs : Int) (index : Nat) (segment : OpSegment Key Data) :
    Progressing batchTs index segment []
      ((sinkChunks limits.sinkChunkRows segment).map fun rows => ⟨rows, .waiting⟩) := by
  constructor
  · simp
  · have rows : ((sinkChunks limits.sinkChunkRows segment).map fun rows =>
        (⟨rows, .waiting⟩ : ChunkTask Key Data)).flatMap ChunkTask.unapplied = segment.rows := by
      rw [List.flatMap_map, ← sinkChunks_flatten limits.sinkChunkRows segment, List.flatMap_def]
      simp [ChunkTask.unapplied]
    rw [rows]
    exact List.Perm.refl _
  · intro chunk task found
    rw [List.getElem?_map] at found
    obtain ⟨rows, _, rfl⟩ := Option.map_eq_some_iff.mp found
    exact ⟨rfl, rfl⟩

/-- A segment is written once all of its tasks were joined. -/
theorem Progressing.written (underway : Progressing batchTs index segment block tasks)
    (chunks : tasks.length = (sinkChunks limits.sinkChunkRows segment).length)
    (joined : ∀ task ∈ tasks, task.phase = .joined) : Written limits batchTs index segment block := by
  refine ⟨underway.own, ?_, ?_⟩
  · have nothing : tasks.flatMap ChunkTask.unapplied = [] := by
      rw [List.flatMap_eq_nil_iff]
      intro task member
      simp [ChunkTask.unapplied, joined task member]
    have rows := underway.rows
    rwa [nothing, List.map_nil, List.append_nil] at rows
  · intro chunk inside
    rw [← chunks] at inside
    have marks := underway.marks chunk tasks[chunk] (List.getElem?_eq_getElem inside)
    rw [joined _ (List.getElem_mem inside)] at marks
    exact marks

end Chunks

/-- Every segment has its own block of events, one after the other. -/
def ReplayedWrites (limits : SinkLimits) (batchTs : Int) (segments : List (OpSegment Key Data))
    (log : List (WriteEvent Key Data)) : Prop :=
  ∃ blocks : List (List (WriteEvent Key Data)), log = blocks.flatten ∧ blocks.length = segments.length ∧
    ∀ (index : Nat) segment block, segments[index]? = some segment → blocks[index]? = some block →
      Written limits batchTs index segment block

/-- The segments before the current one were written, and the current one is under way. -/
structure Replaying (limits : SinkLimits) (batchTs : Int) (segments : List (OpSegment Key Data))
    (writes : SegmentWrites Key Data) (blocks : List (List (WriteEvent Key Data)))
    (block : List (WriteEvent Key Data)) : Prop where
  remaining : writes.remaining = segments.drop writes.started
  log : writes.log = blocks.flatten ++ block
  count : blocks.length = writes.segment
  finished : ∀ (index : Nat) segment earlier, segments[index]? = some segment → blocks[index]? = some earlier →
    Written limits batchTs index segment earlier
  current : writes.started = 0 ∧ block = [] ∧ writes.tasks = [] ∨
    ∃ segment, 0 < writes.started ∧ segments[writes.segment]? = some segment ∧ writes.op = segment.op ∧
      writes.tasks.length = (sinkChunks limits.sinkChunkRows segment).length ∧
      Progressing batchTs writes.segment segment block writes.tasks

/-- This holds while the function runs and when it has returned without an error. -/
def Ordered (limits : SinkLimits) (batchTs : Int) (segments : List (OpSegment Key Data))
    (writes : SegmentWrites Key Data) : Prop :=
  match writes.result with
  | none => ∃ blocks block, Replaying limits batchTs segments writes blocks block
  | some (.ok ()) => ReplayedWrites limits batchTs segments writes.log
  | some (.error _) => True

section Steps

variable {limits : SinkLimits} {batchTs : Int} {segments : List (OpSegment Key Data)}
  {writes next : SegmentWrites Key Data} {blocks : List (List (WriteEvent Key Data))}
  {block : List (WriteEvent Key Data)}

/-- A chunk task takes a step and records events about its own chunk. -/
theorem Replaying.advance (replaying : Replaying limits batchTs segments writes blocks block) {chunk : Nat}
    {task : ChunkTask Key Data} (found : writes.tasks[chunk]? = some task) (phase : ChunkPhase Key Data)
    (events : List (WriteEvent Key Data)) (own : ∀ event ∈ events, event.segment = writes.segment)
    (rows : (events.filterMap WriteEvent.row? ++
        (ChunkTask.unapplied ⟨task.rows, phase⟩).map fun row => (writes.op, row, batchTs)).Perm
      (task.unapplied.map fun row => (writes.op, row, batchTs)))
    (begun : ∀ other ∈ events.filterMap WriteEvent.begun?, other = chunk)
    (completed : ∀ other ∈ events.filterMap WriteEvent.completed?, other = chunk)
    (marks : ∀ began complete, task.phase.Marks began complete →
      phase.Marks (began + (events.filterMap WriteEvent.begun?).length)
        (complete + (events.filterMap WriteEvent.completed?).length))
    (tableFree globalFree : Nat) :
    Replaying limits batchTs segments { writes with
      tasks := writes.tasks.modify chunk fun task => { task with phase }
      log := writes.log ++ events
      tableFree, globalFree } blocks (block ++ events) where
  remaining := replaying.remaining
  log := by
    dsimp only
    rw [replaying.log, List.append_assoc]
  count := replaying.count
  finished := replaying.finished
  current := by
    rcases replaying.current with ⟨_, _, none⟩ | ⟨segment, started, current, op, length, underway⟩
    · simp [none] at found
    · refine .inr ⟨segment, started, current, op, by simpa using length, ?_⟩
      rw [op] at rows
      exact underway.advance found phase events own rows begun completed marks

theorem Replaying.borrow (replaying : Replaying limits batchTs segments writes blocks block)
    (globalFree borrowed : Nat) :
    Replaying limits batchTs segments { writes with globalFree, borrowed } blocks block :=
  ⟨replaying.remaining, replaying.log, replaying.count, replaying.finished, replaying.current⟩

/-- Once all tasks were joined, the blocks of the started segments are complete. -/
theorem Replaying.joined (replaying : Replaying limits batchTs segments writes blocks block)
    (joined : ∀ task ∈ writes.tasks, task.phase = .joined) :
    ∃ complete : List (List (WriteEvent Key Data)), writes.log = complete.flatten ∧ complete.length = writes.started ∧
      ∀ (index : Nat) segment earlier, segments[index]? = some segment → complete[index]? = some earlier →
        Written limits batchTs index segment earlier := by
  rcases replaying.current with ⟨none, empty, _⟩ | ⟨segment, started, current, op, length, underway⟩
  · refine ⟨blocks, ?_, ?_, replaying.finished⟩
    · rw [replaying.log, empty, List.append_nil]
    · rw [replaying.count, SegmentWrites.segment, none]
  · have written : Written limits batchTs writes.segment segment block := underway.written length joined
    have before : writes.segment + 1 = writes.started := by
      rw [SegmentWrites.segment]
      omega
    refine ⟨blocks ++ [block], ?_, ?_, ?_⟩
    · rw [replaying.log]
      simp
    · rw [List.length_append, replaying.count, List.length_singleton, before]
    · intro index other earlier located found
      rcases Nat.lt_trichotomy index writes.segment with less | same | more
      · rw [List.getElem?_append_left (by rw [replaying.count]; exact less)] at found
        exact replaying.finished index other earlier located found
      · subst same
        rw [← replaying.count, List.getElem?_concat_length] at found
        obtain rfl := Option.some.inj found
        obtain rfl : segment = other := Option.some.inj (current.symm.trans located)
        exact written
      · rw [List.getElem?_eq_none (by simp [replaying.count]; omega)] at found
        simp at found

/-- Only segments of the batch were started. -/
theorem Replaying.started_le (replaying : Replaying limits batchTs segments writes blocks block) :
    writes.started ≤ segments.length := by
  rcases replaying.current with ⟨none, _, _⟩ | ⟨segment, started, current, _⟩
  · omega
  · obtain ⟨inside, _⟩ := List.getElem?_eq_some_iff.mp current
    rw [SegmentWrites.segment] at inside
    omega

/-- The next segment starts after the barrier. -/
theorem Replaying.startSegment (replaying : Replaying limits batchTs segments writes blocks block)
    (joined : ∀ task ∈ writes.tasks, task.phase = .joined) {segment : OpSegment Key Data}
    {remaining : List (OpSegment Key Data)} (left : writes.remaining = segment :: remaining) :
    ∃ complete, Replaying limits batchTs segments { writes with
      remaining
      started := writes.started + 1
      op := segment.op
      tasks := (sinkChunks limits.sinkChunkRows segment).map fun rows => ⟨rows, .waiting⟩ } complete [] := by
  obtain ⟨complete, log, length, written⟩ := replaying.joined joined
  have dropped := replaying.remaining
  rw [left] at dropped
  have current : segments[writes.started]? = some segment := by
    have head := congrArg List.head? dropped
    rw [List.head?_drop, List.head?_cons] at head
    exact head.symm
  have rest : remaining = segments.drop (writes.started + 1) := by
    have tail := congrArg List.tail dropped
    rwa [List.tail_cons, List.tail_drop] at tail
  refine ⟨complete, rest, ?_, ?_, written, .inr ⟨segment, by simp, ?_, rfl, by simp, ?_⟩⟩
  · dsimp only
    rw [log, List.append_nil]
  · simpa [SegmentWrites.segment] using length
  · simpa [SegmentWrites.segment] using current
  · exact Progressing.start limits batchTs _ segment

/-- A running state keeps its order by the blocks it has. -/
theorem Ordered.running (running : writes.result = none)
    (replaying : Replaying limits batchTs segments writes blocks block) : Ordered limits batchTs segments writes := by
  rw [Ordered, running]
  exact ⟨blocks, block, replaying⟩

/-- A task takes a step that applies no row and begins or completes no chunk. -/
theorem Replaying.advance_silent (replaying : Replaying limits batchTs segments writes blocks block) {chunk : Nat}
    {task : ChunkTask Key Data} (found : writes.tasks[chunk]? = some task) (phase : ChunkPhase Key Data)
    (rows : ChunkTask.unapplied ⟨task.rows, phase⟩ = task.unapplied)
    (marks : ∀ began complete, task.phase.Marks began complete → phase.Marks began complete)
    (tableFree globalFree : Nat) :
    Replaying limits batchTs segments { writes with
      tasks := writes.tasks.modify chunk fun task => { task with phase }
      tableFree, globalFree } blocks block := by
  have moved := replaying.advance found phase [] (by simp) (by simp [rows]) (by simp) (by simp)
    (by simpa using marks) tableFree globalFree
  rw [List.append_nil] at moved
  simpa only [List.append_nil] using moved

/-- The tasks that the function has joined. -/
theorem joined_of_all {tasks : List (ChunkTask Key Data)}
    (all : (tasks.all fun task => task.phase matches .joined) = true) : ∀ task ∈ tasks, task.phase = .joined := by
  intro task member
  have joined := List.all_eq_true.mp all task member
  cases phase : task.phase <;> simp_all

/-- Every step of a running function keeps the order of the blocks. -/
theorem Replaying.step {action : WriteAction} (replaying : Replaying limits batchTs segments writes blocks block)
    (running : writes.result = none) (stepped : segmentWriteStep limits batchTs writes action = some next) :
    Ordered limits batchTs segments next := by
  unfold segmentWriteStep at stepped
  rw [if_neg (by simp [running])] at stepped
  cases action with
  | startSegment =>
      cases left : writes.remaining with
      | nil => simp [left] at stepped
      | cons segment remaining =>
          simp only [left] at stepped
          rw [Option.ite_none_right_eq_some, Option.some_inj] at stepped
          obtain ⟨all, rfl⟩ := stepped
          obtain ⟨complete, replaying⟩ := replaying.startSegment (joined_of_all all) left
          exact .running running replaying
  | acquireTable chunk =>
      dsimp only at stepped
      split at stepped
      · rename_i rows found
        rw [Option.ite_none_right_eq_some, Option.some_inj] at stepped
        obtain ⟨_, rfl⟩ := stepped
        exact .running running (replaying.advance_silent found .permitted rfl (fun _ _ marks => marks) _ _)
      · simp at stepped
  | acquireGlobal chunk =>
      dsimp only at stepped
      split at stepped
      · rename_i rows found
        rw [Option.ite_none_right_eq_some, Option.some_inj] at stepped
        obtain ⟨_, rfl⟩ := stepped
        refine .running running (replaying.advance found (.writing rows) [.began writes.segment chunk]
          (by simp [WriteEvent.segment]) (List.Perm.refl _) (by simp [WriteEvent.begun?])
          (by simp [WriteEvent.completed?]) ?_ _ _)
        rintro began complete ⟨rfl, rfl⟩
        exact ⟨rfl, rfl⟩
      · simp at stepped
  | apply chunk row =>
      dsimp only at stepped
      split at stepped
      · rename_i rows rest found
        obtain ⟨applied, located, rfl⟩ := Option.map_eq_some_iff.mp stepped
        refine .running running (replaying.advance found (.writing (rest.eraseIdx row))
          [.applied writes.segment writes.op applied batchTs] (by simp [WriteEvent.segment]) ?_
          (by simp [WriteEvent.begun?]) (by simp [WriteEvent.completed?]) (fun _ _ marks => marks) _ _)
        -- The row moves from those that the task holds to those that were applied.
        obtain ⟨inside, rfl⟩ := List.getElem?_eq_some_iff.mp located
        exact (List.getElem_cons_eraseIdx_perm inside).map fun row => (writes.op, row, batchTs)
      · simp at stepped
  | complete chunk =>
      dsimp only at stepped
      split at stepped
      · rename_i rows found
        obtain rfl := Option.some.inj stepped
        refine .running running (replaying.advance found .done [.completed writes.segment chunk]
          (by simp [WriteEvent.segment]) (List.Perm.refl _) (by simp [WriteEvent.begun?])
          (by simp [WriteEvent.completed?]) ?_ _ _)
        rintro began complete ⟨rfl, rfl⟩
        exact ⟨rfl, rfl⟩
      · simp at stepped
  | fail chunk message =>
      dsimp only at stepped
      split at stepped
      · rename_i rows found
        obtain rfl := Option.some.inj stepped
        exact .running running
          (replaying.advance_silent found (.failed message rows) rfl (fun _ _ _ => trivial) _ _)
      · rename_i rows found
        obtain rfl := Option.some.inj stepped
        exact .running running
          (replaying.advance_silent found (.failed message rows) rfl (fun _ _ _ => trivial) _ _)
      · rename_i rows rest found
        obtain rfl := Option.some.inj stepped
        exact .running running
          (replaying.advance_silent found (.failed message rest) rfl (fun _ _ _ => trivial) _ _)
      · simp at stepped
  | join chunk =>
      dsimp only at stepped
      split at stepped
      · rename_i rows found
        obtain rfl := Option.some.inj stepped
        exact .running running (replaying.advance_silent found .joined rfl (fun _ _ marks => marks) _ _)
      · obtain rfl := Option.some.inj stepped
        exact trivial
      · simp at stepped
  | finish =>
      dsimp only at stepped
      rw [Option.ite_none_right_eq_some, Bool.and_eq_true, Option.some_inj] at stepped
      obtain ⟨⟨empty, all⟩, rfl⟩ := stepped
      obtain ⟨complete, log, length, written⟩ := replaying.joined (joined_of_all all)
      have atLeast : segments.length ≤ writes.started := by
        have dropped := replaying.remaining
        rw [List.isEmpty_iff.mp empty] at dropped
        exact List.drop_eq_nil_iff.mp dropped.symm
      exact ⟨complete, log, by rw [length, Nat.le_antisymm replaying.started_le atLeast], written⟩
  | borrow =>
      dsimp only at stepped
      rw [Option.ite_none_right_eq_some, Option.some_inj] at stepped
      obtain ⟨_, rfl⟩ := stepped
      exact .running running (replaying.borrow _ _)
  | giveBack =>
      dsimp only at stepped
      rw [Option.ite_none_right_eq_some, Option.some_inj] at stepped
      obtain ⟨_, rfl⟩ := stepped
      exact .running running (replaying.borrow _ _)

/-- Every reachable state keeps the order of the blocks. -/
theorem Ordered.of_reaches
    (reached : (writeMachine limits batchTs).Reaches (.new limits segments) writes) :
    Ordered limits batchTs segments writes := by
  refine reached.invariant (Ordered limits batchTs segments) ?_ ?_
  · rintro state next ordered ⟨action, _, stepped⟩
    cases result : state.result with
    | none =>
        rw [Ordered, result] at ordered
        obtain ⟨blocks, block, replaying⟩ := ordered
        exact replaying.step result stepped
    | some result' =>
        have halted : segmentWriteStep limits batchTs state action = none := if_pos (by simp [result])
        exact absurd (halted.symm.trans stepped) (by simp)
  · have start : Replaying limits batchTs segments (.new limits segments) [] [] :=
      ⟨rfl, rfl, rfl, by simp, .inl ⟨rfl, rfl, rfl⟩⟩
    exact .running rfl start

end Steps

section Replay

variable {limits : SinkLimits} {batchTs : Int} {segments : List (OpSegment Key Data)}
  {log : List (WriteEvent Key Data)}

/-- The segments of the events never go back. -/
theorem ReplayedWrites.monotone (replayed : ReplayedWrites limits batchTs segments log) :
    log.Pairwise fun earlier later => earlier.segment ≤ later.segment := by
  obtain ⟨blocks, rfl, length, written⟩ := replayed
  have own : ∀ (index : Nat) (inside : index < blocks.length), ∀ event ∈ blocks[index], event.segment = index := by
    intro index inside
    have segment := List.getElem?_eq_getElem (length ▸ inside : index < segments.length)
    exact (written index _ _ segment (List.getElem?_eq_getElem inside)).own
  rw [List.pairwise_flatten]
  constructor
  · intro block member
    obtain ⟨index, inside, rfl⟩ := List.mem_iff_getElem.mp member
    refine List.pairwise_of_forall_mem_list ?_
    intro first inFirst second inSecond
    rw [own index inside first inFirst, own index inside second inSecond]
  · rw [List.pairwise_iff_getElem]
    intro earlier later inEarlier inLater less first inFirst second inSecond
    rw [own earlier inEarlier first inFirst, own later inLater second inSecond]
    exact less.le

/-- Whatever happens for a segment happens after every chunk of every earlier segment was completed. -/
theorem ReplayedWrites.barrier (replayed : ReplayedWrites limits batchTs segments log) {before after : List (WriteEvent Key Data)}
    {event : WriteEvent Key Data} (cut : log = before ++ event :: after) {index : Nat} (earlier : index < event.segment)
    {segment : OpSegment Key Data} (located : segments[index]? = some segment) {chunk : Nat}
    (inside : chunk < (sinkChunks limits.sinkChunkRows segment).length) : .completed index chunk ∈ before := by
  have monotone := replayed.monotone
  have completed : .completed index chunk ∈ log := by
    obtain ⟨blocks, rfl, length, written⟩ := replayed
    obtain ⟨within, _⟩ := List.getElem?_eq_some_iff.mp located
    have block := List.getElem?_eq_getElem (length ▸ within : index < blocks.length)
    have whole := written index segment _ located block
    have counted := (whole.chunks chunk inside).2
    have member : chunk ∈ blocks[index].filterMap WriteEvent.completed? :=
      List.count_pos_iff.mp (by omega)
    obtain ⟨found, inBlock, isCompleted⟩ := List.mem_filterMap.mp member
    have same : found = .completed index chunk := by
      have ours := whole.own found inBlock
      cases found with
      | began _ _ => simp [WriteEvent.completed?] at isCompleted
      | applied _ _ _ _ => simp [WriteEvent.completed?] at isCompleted
      | completed at' chunk' =>
          simp only [WriteEvent.completed?, Option.some.injEq] at isCompleted
          simp only [WriteEvent.segment] at ours
          rw [ours, isCompleted]
    rw [← same]
    exact List.mem_flatten.mpr ⟨_, List.getElem_mem _, inBlock⟩
  rw [cut, List.pairwise_append, List.pairwise_cons] at monotone
  rw [cut, List.mem_append, List.mem_cons] at completed
  rcases completed with found | rfl | found
  · exact found
  · simp [WriteEvent.segment] at earlier
  · have order := monotone.2.1.1 _ found
    simp only [WriteEvent.segment] at order earlier
    omega

variable {Cell : Type} [DecidableEq Key] (effect : InsertOp → Key × Data → Int → Cell → Cell)

/-- The table depends on the applied rows only. -/
theorem applyEvents_eq_rows (table : Key → Cell) (events : List (WriteEvent Key Data)) :
    applyEvents effect table events = (events.filterMap WriteEvent.row?).foldl
      (fun table applied => applyRow effect applied.2.2 applied.1 table applied.2.1) table := by
  induction events generalizing table with
  | nil => rfl
  | cons event rest ih =>
      cases event with
      | began segment chunk => exact ih table
      | completed segment chunk => exact ih table
      | applied segment op row createdAt => exact ih (applyRow effect createdAt op table row)

/-- Two rows with different keys can change places. -/
theorem applyRow_comm (batchTs : Int) (op : InsertOp) (table : Key → Cell) {first second : Key × Data}
    (distinct : first.1 ≠ second.1) :
    applyRow effect batchTs op (applyRow effect batchTs op table first) second =
      applyRow effect batchTs op (applyRow effect batchTs op table second) first := by
  unfold applyRow
  rw [Function.update_of_ne distinct.symm, Function.update_of_ne distinct, Function.update_comm distinct]

/-- The rows of a written segment change the table as if they were applied one at a time. -/
theorem Written.applyEvents_eq {index : Nat} {segment : OpSegment Key Data} {block : List (WriteEvent Key Data)}
    (written : Written limits batchTs index segment block) (distinct : (segment.rows.map Prod.fst).Nodup)
    (table : Key → Cell) :
    applyEvents effect table block = segment.rows.foldl (applyRow effect batchTs segment.op) table := by
  rw [applyEvents_eq_rows, written.rows.symm.foldl_eq' ?_ table |>.symm, List.foldl_map]
  intro first inFirst second inSecond table
  obtain ⟨row, member, rfl⟩ := List.mem_map.mp inFirst
  obtain ⟨other, member', rfl⟩ := List.mem_map.mp inSecond
  by_cases same : row.1 = other.1
  · obtain rfl := List.inj_on_of_nodup_map distinct member member' same
    rfl
  · exact applyRow_comm effect batchTs segment.op table same

/-- The blocks change the table as if the segments were replayed in order. -/
theorem applyEvents_flatten {blocks : List (List (WriteEvent Key Data))}
    (written : List.Forall₂ (fun segment block => ∃ index, Written limits batchTs index segment block) segments blocks)
    (distinct : ∀ segment ∈ segments, (segment.rows.map Prod.fst).Nodup) (table : Key → Cell) :
    applyEvents effect table blocks.flatten = replaySegments effect batchTs table segments := by
  induction written generalizing table with
  | nil => rfl
  | @cons segment block segments blocks first _ ih =>
      obtain ⟨index, first⟩ := first
      have head := first.applyEvents_eq effect (distinct segment (by simp)) table
      have tail := ih (fun other member => distinct other (List.mem_cons_of_mem _ member))
        (segment.rows.foldl (applyRow effect batchTs segment.op) table)
      calc applyEvents effect table (block ++ blocks.flatten)
          = applyEvents effect (applyEvents effect table block) blocks.flatten := List.foldl_append
        _ = replaySegments effect batchTs table (segment :: segments) := by rw [head, tail]; rfl

end Replay

/-- When the segments of a batch were written, each row was applied once with the operation of its segment and
the timestamp of the batch, no chunk was written before the earlier segments were completed, and the table is the
one that the rows leave one at a time. -/
theorem writeSegments_replay [DecidableEq Key] (limits : SinkLimits) (batchTs : Int)
    (segments : List (OpSegment Key Data)) (distinct : ∀ segment ∈ segments, (segment.rows.map Prod.fst).Nodup)
    (writes : SegmentWrites Key Data)
    (reached : (writeMachine limits batchTs).Reaches (.new limits segments) writes)
    (returned : writes.result = some (.ok ())) :
    ReplayedWrites limits batchTs segments writes.log ∧
      (∀ before event after, writes.log = before ++ event :: after → ∀ index < event.segment,
        ∀ segment, segments[index]? = some segment →
        ∀ chunk < (sinkChunks limits.sinkChunkRows segment).length, .completed index chunk ∈ before) ∧
      ∀ {Cell : Type} (effect : InsertOp → Key × Data → Int → Cell → Cell) (table : Key → Cell),
        applyEvents effect table writes.log = replaySegments effect batchTs table segments := by
  have replayed : ReplayedWrites limits batchTs segments writes.log := by
    have ordered := Ordered.of_reaches reached
    rwa [Ordered, returned] at ordered
  refine ⟨replayed, ?_, ?_⟩
  · intro before event after cut index earlier segment located chunk inside
    exact replayed.barrier cut earlier located inside
  · intro Cell effect table
    obtain ⟨blocks, log, length, written⟩ := replayed
    have matched : List.Forall₂ (fun segment block => ∃ index, Written limits batchTs index segment block)
        segments blocks := by
      rw [List.forall₂_iff_get]
      refine ⟨length.symm, ?_⟩
      intro index inside within
      exact ⟨index, written index _ _ (List.getElem?_eq_getElem inside) (List.getElem?_eq_getElem within)⟩
    rw [log]
    exact applyEvents_flatten effect matched distinct table

/-- The second chunk of an insert segment is written before the first one, and an update segment follows. -/
def secondChunkFirst : List WriteAction :=
  [.startSegment, .acquireTable 0, .acquireTable 1, .acquireGlobal 1, .apply 1 0, .complete 1, .join 1,
    .acquireGlobal 0, .apply 0 0, .complete 0, .join 0, .startSegment, .acquireTable 0, .acquireGlobal 0, .apply 0 0,
    .complete 0, .join 0, .finish]

theorem writeSegments_replay_sample :
    ∃ writes : SegmentWrites Nat Nat,
      (writeMachine ⟨1, 2, 1⟩ 7).Reaches
        (.new ⟨1, 2, 1⟩ [⟨.insert, [(1, 10), (2, 20)]⟩, ⟨.update ["id"], [(1, 11)]⟩]) writes ∧
      writes.result = some (.ok ()) ∧
      applyEvents (fun _ row createdAt _ => some (row.2, createdAt)) (fun _ => none) writes.log =
        replaySegments (fun _ row createdAt _ => some (row.2, createdAt)) 7 (fun _ => none)
          [⟨.insert, [(1, 10), (2, 20)]⟩, ⟨.update ["id"], [(1, 11)]⟩] := by
  have ended : ((writeMachine ⟨1, 2, 1⟩ 7).run
      (.new ⟨1, 2, 1⟩ [⟨.insert, [(1, 10), (2, 20)]⟩, ⟨.update ["id"], [(1, 11)]⟩] : SegmentWrites Nat Nat)
      secondChunkFirst).map (fun writes => writes.result.map Except.isOk) = some (some true) := by
    decide
  obtain ⟨writes, ran, ok⟩ := Option.map_eq_some_iff.mp ended
  have returned : writes.result = some (.ok ()) := by
    cases result : writes.result with
    | none => simp [result] at ok
    | some returned =>
        cases returned with
        | ok value => rfl
        | error message => simp [result, Except.isOk, Except.toBool] at ok
  have reached := (writeMachine ⟨1, 2, 1⟩ 7).reaches_of_run (fun _ _ => trivial) ran
  have distinct : ∀ segment ∈ ([⟨.insert, [(1, 10), (2, 20)]⟩, ⟨.update ["id"], [(1, 11)]⟩] :
      List (OpSegment Nat Nat)), (segment.rows.map Prod.fst).Nodup := by
    decide
  obtain ⟨_, _, replay⟩ := writeSegments_replay ⟨1, 2, 1⟩ 7 _ distinct writes reached returned
  exact ⟨writes, reached, returned, replay _ _⟩

end Spicebench.Etl
