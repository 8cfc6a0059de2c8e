import Spicebench.Construction.QuerySets
import Spicebench.Construction.SpiceTest
import Spicebench.Library.Traversal

namespace Spicebench.QuerySets

open Library

variable {Query : Type} {name : Query → String} {order : HashOrder String} {queries : List Query}

section Sizes

theorem validateSizes_some_iff (expected : ℕ) (groups : List (String × List Query)) (result : Option ℕ) :
    validateSizes (some expected) groups = .ok result ↔
      (∀ group ∈ groups, group.2.length = expected) ∧ result = some expected := by
  induction groups with
  | nil => simp [validateSizes, pure, Except.pure, eq_comm]
  | cons group rest ih =>
      rw [validateSizes, List.forall_mem_cons]
      split_ifs with differ
      · refine iff_of_false (by simp) ?_
        rintro ⟨⟨here, -⟩, -⟩
        exact differ here.symm
      · rw [ih, ← not_ne_iff.mp differ]
        tauto

/-- The loop ends with the one size of all groups, or with none when there is no group. -/
theorem validateSizes_none_iff (groups : List (String × List Query)) (result : Option ℕ) :
    validateSizes none groups = .ok result ↔
      (∀ group ∈ groups, group.2.length = result.getD 0) ∧ (result = none ↔ groups = []) := by
  cases groups with
  | nil => simp [validateSizes, pure, Except.pure, eq_comm]
  | cons group rest =>
      rw [validateSizes, validateSizes_some_iff, List.forall_mem_cons]
      constructor
      · rintro ⟨others, rfl⟩
        exact ⟨⟨rfl, others⟩, by simp⟩
      · rintro ⟨⟨here, others⟩, known⟩
        obtain ⟨size, rfl⟩ := Option.ne_none_iff_exists'.mp (mt known.mp (List.cons_ne_nil group rest))
        rw [Option.getD_some] at here others
        exact ⟨fun other member => (others other member).trans here.symm, by rw [here]⟩

end Sizes

section Groups

/-- The queries of one name, in the order of the input. -/
def variants (name : Query → String) (queries : List Query) (queryName : String) : List Query :=
  queries.filter (name · = queryName)

/-- The groups as the map yields them. -/
def groupsOf (name : Query → String) (order : HashOrder String) (queries : List Query) : List (String × List Query) :=
  HashGroups.iterate order (HashGroups.collect name queries)

theorem complete_groupsOf (name : Query → String) (order : HashOrder String) (queries : List Query) :
    HashGroups.Complete name queries (groupsOf name order queries) :=
  have collected := HashGroups.complete_collect queries
  collected.perm (HashGroups.iterate_perm order collected.distinct)

theorem names_perm : ((groupsOf name order queries).map Prod.fst).Perm (queries.map name).dedup := by
  have complete := complete_groupsOf name order queries
  refine (List.perm_ext_iff_of_nodup complete.distinct (List.nodup_dedup _)).mpr fun queryName => ?_
  rw [complete.covers, List.mem_dedup]

theorem group_eq_variants {group : String × List Query} (member : group ∈ groupsOf name order queries) :
    group.2 = variants name queries group.1 := (complete_groupsOf name order queries).members group member

/-- The groups are even when the names have equally many variants. -/
theorem even_iff : (∀ one ∈ groupsOf name order queries, ∀ two ∈ groupsOf name order queries,
    one.2.length = two.2.length) ↔ ∀ first ∈ queries, ∀ second ∈ queries,
      (variants name queries (name first)).length = (variants name queries (name second)).length := by
  have complete := complete_groupsOf name order queries
  constructor
  · intro even first inside second among
    obtain ⟨one, member, own⟩ := List.mem_map.mp ((complete.covers _).mpr (List.mem_map_of_mem inside))
    obtain ⟨two, other, further⟩ := List.mem_map.mp ((complete.covers _).mpr (List.mem_map_of_mem among))
    rw [← own, ← further, ← group_eq_variants member, ← group_eq_variants other]
    exact even one member two other
  · intro even one member two other
    obtain ⟨first, inside, own⟩ := List.mem_map.mp ((complete.covers _).mp (List.mem_map_of_mem member))
    obtain ⟨second, among, further⟩ := List.mem_map.mp ((complete.covers _).mp (List.mem_map_of_mem other))
    rw [group_eq_variants member, group_eq_variants other, ← own, ← further]
    exact even first inside second among

end Groups

section Dealing

variable {sets : List (List Query)}

/-- The sets are the columns of even groups. -/
theorem build_ok_iff : buildUniqueQuerySets name order queries = .ok sets ↔ ∃ result,
    validateSizes none (groupsOf name order queries) = .ok result ∧
      sets = (List.range (result.getD 0)).map (HashGroups.column (groupsOf name order queries)) := by
  unfold buildUniqueQuerySets
  rw [bind_eq_ok_iff]
  refine exists_congr fun result => and_congr_right fun _ => ?_
  exact ⟨fun same => (Except.ok.inj same).symm, fun same => congrArg Except.ok same.symm⟩

theorem exists_size (built : buildUniqueQuerySets name order queries = .ok sets) :
    ∃ size, (∀ group ∈ groupsOf name order queries, group.2.length = size) ∧
      sets = (List.range size).map (HashGroups.column (groupsOf name order queries)) := by
  obtain ⟨result, validated, same⟩ := build_ok_iff.mp built
  exact ⟨result.getD 0, ((validateSizes_none_iff _ _).mp validated).1, same⟩

/-- The sets are refused exactly when two names have other numbers of variants. -/
theorem build_error_iff : (∃ message, buildUniqueQuerySets name order queries = .error message) ↔
    ∃ first ∈ queries, ∃ second ∈ queries,
      (variants name queries (name first)).length ≠ (variants name queries (name second)).length := by
  have failed : (∃ message, buildUniqueQuerySets name order queries = .error message) ↔
      ¬∃ sets, buildUniqueQuerySets name order queries = .ok sets := by
    cases buildUniqueQuerySets name order queries <;> simp
  have built : (∃ sets, buildUniqueQuerySets name order queries = .ok sets) ↔
      ∀ one ∈ groupsOf name order queries, ∀ two ∈ groupsOf name order queries, one.2.length = two.2.length := by
    constructor
    · rintro ⟨sets, built⟩ one member two other
      obtain ⟨size, even, -⟩ := exists_size built
      rw [even one member, even two other]
    · intro even
      have validated : validateSizes none (groupsOf name order queries) =
          .ok ((groupsOf name order queries).head?.map (·.2.length)) := by
        rw [validateSizes_none_iff]
        cases groups : groupsOf name order queries with
        | nil => simp
        | cons first rest =>
            rw [groups] at even
            exact ⟨fun group member => even group member first List.mem_cons_self, by simp⟩
      exact ⟨_, build_ok_iff.mpr ⟨_, validated, rfl⟩⟩
  rw [failed, built, even_iff]
  simp

/-- The sets of even groups hold each query of the input once. -/
theorem flatten_perm (built : buildUniqueQuerySets name order queries = .ok sets) : sets.flatten.Perm queries := by
  obtain ⟨size, even, rfl⟩ := exists_size built
  exact (HashGroups.flatten_columns_perm even).trans (complete_groupsOf name order queries).flatMap_perm

theorem column_perm (index : ℕ) : (HashGroups.column (groupsOf name order queries) index).Perm
    ((queries.map name).dedup.filterMap fun queryName => (variants name queries queryName)[index]?) := by
  have cut : HashGroups.column (groupsOf name order queries) index =
      ((groupsOf name order queries).map Prod.fst).filterMap fun queryName =>
        (variants name queries queryName)[index]? := by
    rw [List.filterMap_map]
    refine List.filterMap_congr fun group member => ?_
    rw [group_eq_variants member]
    rfl
  rw [cut]
  exact names_perm.filterMap _

/-- A set has one query of each name. -/
theorem map_name_column {size index : ℕ} (inside : index < size)
    (even : ∀ group ∈ groupsOf name order queries, group.2.length = size) :
    (HashGroups.column (groupsOf name order queries) index).map name = (groupsOf name order queries).map Prod.fst := by
  have each : ∀ group ∈ groupsOf name order queries, (group.2[index]?).map name = some group.1 := by
    intro group member
    obtain ⟨query, found⟩ : ∃ query, group.2[index]? = some query :=
      ⟨_, List.getElem?_eq_getElem (by rwa [even group member])⟩
    have own := List.mem_of_getElem? found
    rw [group_eq_variants member] at own
    rw [found, Option.map_some, of_decide_eq_true (List.mem_filter.mp own).2]
  rw [HashGroups.column, List.map_filterMap, List.filterMap_congr each, List.filterMap_eq_map']

/-- Relabelled queries are dealt into relabelled sets. -/
theorem build_map (name : Query → String) (order : HashOrder String) {Labelled : Type}
    (relabel : Labelled → Query) (labelled : List Labelled) :
    buildUniqueQuerySets name order (labelled.map relabel) =
      (buildUniqueQuerySets (name ∘ relabel) order labelled).map (List.map (List.map relabel)) := by
  have sizes : ∀ (expected : Option ℕ) (groups : List (String × List Labelled)),
      validateSizes expected (HashGroups.relabelGroups relabel groups) = validateSizes expected groups := by
    intro expected groups
    induction groups generalizing expected with
    | nil => cases expected <;> rfl
    | cons group rest ih =>
        rw [HashGroups.relabelGroups] at ih
        rw [HashGroups.relabelGroups, List.map_cons]
        cases expected with
        | none => rw [validateSizes, validateSizes, ih, List.length_map]
        | some expected => rw [validateSizes, validateSizes, ih, List.length_map]
  unfold buildUniqueQuerySets
  rw [HashGroups.collect_relabel, HashGroups.iterate_relabel]
  dsimp only
  rw [sizes]
  cases validateSizes none _ with
  | error message => rfl
  | ok result =>
      refine congrArg Except.ok ?_
      rw [List.map_map]
      exact List.map_congr_left fun index _ => HashGroups.column_relabel relabel _ index

theorem nodup_zipIdx : queries.zipIdx.Nodup := by
  apply List.Nodup.of_map Prod.snd
  rw [List.zipIdx_map_snd]
  exact List.nodup_range'

/-- What is in lists whose items all differ is in one of them. -/
theorem existsUnique_index {Item : Type} {lists : List (List Item)} (distinct : lists.flatten.Nodup) {item : Item}
    (member : item ∈ lists.flatten) : ∃! index : ℕ, ∃ list, lists[index]? = some list ∧ item ∈ list := by
  obtain ⟨list, among, inside⟩ := List.mem_flatten.mp member
  obtain ⟨index, placed⟩ := List.mem_iff_getElem?.mp among
  have apart : ∀ earlier later : ℕ, earlier < later → ∀ one, lists[earlier]? = some one → item ∈ one →
      ∀ two, lists[later]? = some two → item ∉ two := by
    intro earlier later before one first contained two second
    obtain ⟨_, rfl⟩ := List.getElem?_eq_some_iff.mp first
    obtain ⟨_, rfl⟩ := List.getElem?_eq_some_iff.mp second
    exact List.pairwise_iff_getElem.mp (List.nodup_flatten.mp distinct).2 earlier later _ _ before contained
  refine ⟨index, ⟨list, placed, inside⟩, ?_⟩
  rintro other ⟨further, found, contained⟩
  rcases lt_trichotomy other index with before | same | behind
  · exact absurd inside (apart other index before further found contained list placed)
  · exact same
  · exact absurd contained (apart index other behind list placed inside further found)

/-- The loop over the sizes finds the first uneven group. -/
theorem validateSizes_none_eq (groups : List (String × List SpiceTest.Query)) : validateSizes none groups =
    match SpiceTest.unevenGroup groups with
    | some (name, groupSize, expected) => .error ( s!"Uneven parameter groups detected: query '{name}' has " ++
        s!"{groupSize} parameters, expected {expected}")
    | none => .ok (groups.head?.map (·.2.length)) := by
  have uneven : ∀ (expected : ℕ) (rest : List (String × List SpiceTest.Query)), validateSizes (some expected) rest =
      match rest.find? fun group => group.2.length ≠ expected with
      | some group => .error (s!"Uneven parameter groups detected: query '{group.1}' has " ++
          s!"{group.2.length} parameters, expected {expected}")
      | none => .ok (some expected) := by
    intro expected rest
    induction rest with
    | nil => rfl
    | cons group rest ih =>
        rw [validateSizes, List.find?_cons]
        split_ifs with differ
        · rw [decide_eq_true differ.symm]
          rfl
        · rw [ih, decide_eq_false (fun other => differ other.symm)]
  cases groups with
  | nil => rfl
  | cons first rest =>
      rw [validateSizes, uneven]
      unfold SpiceTest.unevenGroup
      dsimp only
      cases rest.find? _ <;> rfl

/-- The sets of a worker are dealt in the order in which its map yields the names. -/
theorem buildUniqueQuerySets_eq (order : HashOrder String) (queries : List SpiceTest.Query) :
    buildUniqueQuerySets SpiceTest.Query.name order queries = SpiceTest.buildUniqueQuerySets
      ((groupsOf SpiceTest.Query.name order queries).map Prod.fst) queries := by
  have groups : (((groupsOf SpiceTest.Query.name order queries).map Prod.fst).map fun name =>
      (name, queries.filter (·.name = name))) = groupsOf SpiceTest.Query.name order queries := by
    rw [List.map_map]
    have same : ∀ group ∈ groupsOf SpiceTest.Query.name order queries,
        (group.1, queries.filter (·.name = group.1)) = id group :=
      fun group member => Prod.ext rfl (group_eq_variants member).symm
    exact (List.map_congr_left same).trans (List.map_id _)
  have form : buildUniqueQuerySets SpiceTest.Query.name order queries =
      (validateSizes none (groupsOf SpiceTest.Query.name order queries)).bind fun expectedSize =>
        .ok ((List.range (expectedSize.getD 0)).map
          (HashGroups.column (groupsOf SpiceTest.Query.name order queries))) := rfl
  rw [form, validateSizes_none_eq, SpiceTest.buildUniqueQuerySets, groups]
  dsimp only
  cases SpiceTest.unevenGroup (groupsOf SpiceTest.Query.name order queries) <;> rfl

end Dealing

/-- The sets are refused exactly when two names have other numbers of variants. Otherwise the sets together are the
input in another order, set `i` has the variant `i` of each name, and each place of the input is dealt into one set. -/
theorem query_sets_dealt (name : Query → String) (order : HashOrder String) (queries : List Query) :
    ((∃ message, buildUniqueQuerySets name order queries = .error message) ↔
      ∃ first ∈ queries, ∃ second ∈ queries,
        (variants name queries (name first)).length ≠ (variants name queries (name second)).length) ∧
    ∀ sets, buildUniqueQuerySets name order queries = .ok sets →
      sets.flatten.Perm queries ∧
      (∀ query ∈ queries, sets.length = (variants name queries (name query)).length) ∧
      (∀ (index : ℕ) (set : List Query), sets[index]? = some set → (set.map name).Perm (queries.map name).dedup ∧
        set.Perm ((queries.map name).dedup.filterMap fun queryName => (variants name queries queryName)[index]?)) ∧
      ∃ labelled : List (List (Query × ℕ)), sets = labelled.map (List.map Prod.fst) ∧
        ∀ occurrence ∈ queries.zipIdx, ∃! index : ℕ, ∃ set, labelled[index]? = some set ∧ occurrence ∈ set := by
  refine ⟨build_error_iff, fun sets built => ⟨flatten_perm built, ?_, ?_, ?_⟩⟩
  · intro query member
    obtain ⟨size, even, rfl⟩ := exists_size built
    have known := (complete_groupsOf name order queries).covers (name query)
    obtain ⟨group, inside, own⟩ := List.mem_map.mp (known.mpr (List.mem_map_of_mem member))
    rw [List.length_map, List.length_range, ← own, ← group_eq_variants inside, even group inside]
  · intro index set placed
    obtain ⟨size, even, rfl⟩ := exists_size built
    obtain ⟨inside, rfl⟩ := List.getElem?_eq_some_iff.mp placed
    rw [List.length_map, List.length_range] at inside
    rw [List.getElem_map, List.getElem_range]
    exact ⟨map_name_column inside even ▸ names_perm, column_perm index⟩
  · have labels := build_map name order Prod.fst queries.zipIdx
    rw [List.zipIdx_map_fst, built] at labels
    cases dealt : buildUniqueQuerySets (name ∘ Prod.fst) order queries.zipIdx with
    | error message =>
        rw [dealt] at labels
        cases labels
    | ok labelled =>
        rw [dealt] at labels
        have perm := flatten_perm dealt
        refine ⟨labelled, Except.ok.inj labels, fun occurrence member => ?_⟩
        exact existsUnique_index (perm.nodup_iff.mpr nodup_zipIdx) (perm.mem_iff.mpr member)

end Spicebench.QuerySets
