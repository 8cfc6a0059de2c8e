import Spicebench.Proof.Yaml

namespace Spicebench.Yaml

open Library

/-- The lookup of a key in a mapping; the first entry of the key is the only one. -/
def Value.get? : Value → Value → Option Value
  | .mapping entries, key => entries.lookup key
  | _, _ => none

section Sources

abbrev YamlHash := List (YamlTree × YamlTree)

mutual
/-- The hashes that a merge value names, where arrays are flattened depth first. -/
def mergeSourcesOf : YamlTree → List YamlHash
  | .leaf _ => []
  | .sequence items => allMergeSourcesOf items
  | .mapping hash => [hash]

def allMergeSourcesOf : List YamlTree → List YamlHash
  | [] => []
  | item :: rest => mergeSourcesOf item ++ allMergeSourcesOf rest
end

/-- The tree is a merge key. -/
def isMergeKey (key : YamlTree) : Bool := key = .leaf (.string mergeKey)

def mergeSources (hash : YamlHash) : List YamlHash :=
  (hash.filter (isMergeKey ·.1)).flatMap (mergeSourcesOf ·.2)

/-- The converted entries that a hash has on its own. -/
def explicitEntries (hash : YamlHash) : Mapping :=
  (hash.filter (!isMergeKey ·.1)).map fun entry => (yamlToValue entry.1, yamlToValue entry.2)

def isScalar : YamlTree → Bool
  | .leaf _ => true
  | _ => false

/-- The keys of a hash are scalars that differ as values. -/
def scalarKeysNode : YamlTree → Bool
  | .mapping hash => hash.all (isScalar ·.1) && decide (hash.map (yamlToValue ·.1)).Nodup
  | _ => true

/-- No key is a real whose text is that of the merge key. -/
def plainRealsNode : YamlTree → Bool
  | .mapping hash => .leaf (.real mergeKey) ∉ hash.map Prod.fst
  | _ => true

end Sources

section Lookups

theorem lookup_cons_if (entry : Value × Value) (rest : Mapping) (key : Value) :
    List.lookup key (entry :: rest) = if key = entry.1 then some entry.2 else rest.lookup key := by
  obtain ⟨head, value⟩ := entry
  rw [List.lookup_cons]
  split_ifs with same
  · rw [beq_iff_eq.mpr same]
  · rw [beq_eq_false_iff_ne.mpr same]

theorem mem_keys_iff_lookup (entries : Mapping) (key : Value) :
    key ∈ entries.map Prod.fst ↔ entries.lookup key ≠ none := by
  induction entries with
  | nil => simp
  | cons entry rest ih =>
      rw [List.map_cons, List.mem_cons, lookup_cons_if, ih]
      split_ifs with same <;> simp [same]

/-- An insertion decides the lookup of its own key only. -/
theorem lookup_indexMapInsert (entries : Mapping) (key value other : Value) :
    (indexMapInsert entries key value).lookup other = if other = key then some value else entries.lookup other := by
  unfold indexMapInsert
  split_ifs with present same same
  · subst same
    induction entries with
    | nil => simp at present
    | cons entry rest ih =>
        rw [List.map_cons, lookup_cons_if]
        by_cases here : entry.1 = other
        · simp [here]
        · have later : other ∈ rest.map Prod.fst := by simpa [Ne.symm here] using present
          simp [here, Ne.symm here, ih later]
  · clear present
    induction entries with
    | nil => rfl
    | cons entry rest ih =>
        rw [List.map_cons, lookup_cons_if, lookup_cons_if, ih]
        by_cases here : entry.1 = key
        · simp [here, same]
        · simp [here]
  · subst same
    rw [mem_keys_iff_lookup, not_not] at present
    rw [List.lookup_append, present, Option.none_or, lookup_cons_if, if_pos rfl]
  · rw [List.lookup_append, lookup_cons_if, if_neg same, List.lookup_nil, Option.or_none]

/-- What is merged later is looked up after what was there. -/
theorem lookup_applyMergeValues (map : Mapping) (mergeValues : List Mapping) (key : Value) :
    (applyMergeValues map mergeValues).lookup key =
      (map.lookup key).or (mergeValues.findSome? fun source => source.lookup key) := by
  have flat : ∀ entries map : Mapping, (entries.foldl (fun map entry =>
      if entry.1 ∈ map.map Prod.fst then map else indexMapInsert map entry.1 entry.2) map).lookup key =
      (map.lookup key).or (entries.lookup key) := by
    intro entries
    induction entries with
    | nil => simp
    | cons entry rest ih =>
        intro map
        rw [List.foldl_cons, ih]
        split_ifs with present
        · rw [lookup_cons_if]
          split_ifs with same
          · rw [mem_keys_iff_lookup, ← same] at present
            cases found : map.lookup key with
            | none => exact absurd found present
            | some value => rfl
          · rfl
        · rw [lookup_indexMapInsert, lookup_cons_if]
          split_ifs with same
          · rw [mem_keys_iff_lookup, not_not, ← same] at present
            rw [present]
            rfl
          · rfl
  rw [applyMergeValues, flat]
  congr 1
  induction mergeValues with
  | nil => rfl
  | cons source rest ih =>
      rw [List.flatten_cons, List.lookup_append, ih, List.findSome?_cons]
      cases source.lookup key <;> rfl

end Lookups

section Resolution

mutual
/-- The mappings that a merge value names are the resolved sources. -/
theorem collectMergeValues_eq : ∀ tree : YamlTree,
    collectMergeValues tree = (mergeSourcesOf tree).map (yamlHashToValue · [] [])
  | .leaf _ => rfl
  | .sequence items => collectAllMergeValues_eq items
  | .mapping _ => rfl

theorem collectAllMergeValues_eq : ∀ items : List YamlTree,
    collectAllMergeValues items = (allMergeSourcesOf items).map (yamlHashToValue · [] [])
  | [] => rfl
  | item :: rest => by
      rw [collectAllMergeValues, allMergeSourcesOf, List.map_append, collectMergeValues_eq item,
        collectAllMergeValues_eq rest]
end

theorem isMergeKey_iff (key : YamlTree) : isMergeKey key = true ↔ key = .leaf (.string mergeKey) := by
  simp [isMergeKey]

/-- The pass inserts the explicit entries, and keeps the sources for its end. -/
theorem yamlHashToValue_eq (hash : YamlHash) (map : Mapping) (mergeValues : List Mapping) :
    yamlHashToValue hash map mergeValues = applyMergeValues
      ((explicitEntries hash).foldl (fun map entry => indexMapInsert map entry.1 entry.2) map)
      (mergeValues ++ (mergeSources hash).map (yamlHashToValue · [] [])) := by
  induction hash generalizing map mergeValues with
  | nil => simp [yamlHashToValue, explicitEntries, mergeSources]
  | cons entry rest ih =>
      obtain ⟨key, value⟩ := entry
      rw [yamlHashToValue]
      split_ifs with merge
      · have marked := (isMergeKey_iff key).mpr merge
        rw [ih, collectMergeValues_eq]
        simp [explicitEntries, mergeSources, marked]
      · have plain : isMergeKey key = false :=
          Bool.eq_false_iff.mpr fun marked => merge ((isMergeKey_iff key).mp marked)
        rw [ih]
        simp [explicitEntries, mergeSources, plain]

theorem lookup_foldl_indexMapInsert {entries : Mapping} (distinct : (entries.map Prod.fst).Nodup) (map : Mapping)
    (key : Value) : (entries.foldl (fun map entry => indexMapInsert map entry.1 entry.2) map).lookup key =
      (entries.lookup key).or (map.lookup key) := by
  induction entries generalizing map with
  | nil => rfl
  | cons entry rest ih =>
      obtain ⟨fresh, others⟩ := List.nodup_cons.mp distinct
      rw [List.foldl_cons, ih others, lookup_indexMapInsert, lookup_cons_if]
      split_ifs with same
      · rw [mem_keys_iff_lookup, not_not, ← same] at fresh
        rw [fresh]
        rfl
      · rfl

/-- An explicit entry is found first, and then the first source that has the key. -/
theorem lookup_resolved {hash : YamlHash} (distinct : (hash.map (yamlToValue ·.1)).Nodup) (key : Value) :
    (yamlHashToValue hash [] []).lookup key = ((explicitEntries hash).lookup key).or
      ((mergeSources hash).findSome? fun source => (yamlHashToValue source [] []).lookup key) := by
  have fewer : ((explicitEntries hash).map Prod.fst).Nodup := by
    rw [explicitEntries, List.map_map]
    exact distinct.sublist (List.filter_sublist.map _)
  rw [yamlHashToValue_eq, lookup_applyMergeValues, lookup_foldl_indexMapInsert fewer, List.lookup_nil, Option.or_none,
    List.nil_append, List.findSome?_map]
  rfl

/-- The place of the only merge key has no influence on the mapping. -/
theorem resolved_moved {hash before behind earlier later : YamlHash} {value : YamlTree}
    (distinct : (hash.map (yamlToValue ·.1)).Nodup)
    (placed : hash = before ++ (.leaf (.string mergeKey), value) :: behind)
    (moved : earlier ++ later = before ++ behind) :
    yamlHashToValue (earlier ++ (.leaf (.string mergeKey), value) :: later) [] [] = yamlHashToValue hash [] [] := by
  subst placed
  have only : ∀ entry ∈ before ++ behind, isMergeKey entry.1 = false := by
    intro entry member
    rw [List.map_append, List.map_cons, List.nodup_middle, List.nodup_cons, ← List.map_append] at distinct
    apply Bool.eq_false_iff.mpr
    intro marked
    rw [isMergeKey_iff] at marked
    exact distinct.1 (List.mem_map.mpr ⟨entry, member, by rw [marked]⟩)
  have explicit : ∀ front back : YamlHash, explicitEntries (front ++ (.leaf (.string mergeKey), value) :: back) =
      explicitEntries (front ++ back) := by
    intro front back
    simp [explicitEntries, isMergeKey]
  have sources : ∀ front back : YamlHash, front ++ back = before ++ behind →
      mergeSources (front ++ (.leaf (.string mergeKey), value) :: back) = mergeSourcesOf value := by
    intro front back same
    rw [← same] at only
    have none : ∀ part : YamlHash, (∀ entry ∈ part, entry ∈ front ++ back) → part.filter (isMergeKey ·.1) = [] := by
      intro part inside
      rw [List.filter_eq_nil_iff]
      intro entry member
      rw [only entry (inside entry member)]
      exact Bool.false_ne_true
    rw [mergeSources, List.filter_append, List.filter_cons, if_pos (by simp [isMergeKey]),
      none front fun entry => List.mem_append_left _, none back fun entry => List.mem_append_right _]
    simp
  rw [yamlHashToValue_eq, yamlHashToValue_eq (before ++ _), explicit, explicit, moved, sources _ _ moved,
    sources _ _ rfl]

end Resolution

section Keys

theorem mem_indexMapInsert {entries : Mapping} {key value : Value} {entry : Value × Value}
    (member : entry ∈ indexMapInsert entries key value) : entry ∈ entries ∨ entry = (key, value) := by
  unfold indexMapInsert at member
  split_ifs at member
  · obtain ⟨old, inside, rfl⟩ := List.mem_map.mp member
    split_ifs
    · exact .inr rfl
    · exact .inl inside
  · simpa using member

theorem mem_foldl_indexMapInsert {entries map : Mapping} {entry : Value × Value}
    (member : entry ∈ entries.foldl (fun map entry => indexMapInsert map entry.1 entry.2) map) :
    entry ∈ map ∨ entry ∈ entries := by
  induction entries generalizing map with
  | nil => exact .inl member
  | cons first rest ih =>
      rcases ih member with inserted | later
      · rcases mem_indexMapInsert inserted with known | rfl
        · exact .inl known
        · exact .inr List.mem_cons_self
      · exact .inr (List.mem_cons_of_mem _ later)

theorem mem_applyMergeValues {map : Mapping} {mergeValues : List Mapping} {entry : Value × Value}
    (member : entry ∈ applyMergeValues map mergeValues) : entry ∈ map ∨ ∃ source ∈ mergeValues, entry ∈ source := by
  rw [applyMergeValues] at member
  rw [← List.mem_flatten]
  generalize mergeValues.flatten = entries at member
  induction entries generalizing map with
  | nil => exact .inl member
  | cons first rest ih =>
      rcases ih member with inserted | later
      · dsimp only at inserted
        split_ifs at inserted
        · exact .inl inserted
        · rcases mem_indexMapInsert inserted with known | rfl
          · exact .inl known
          · exact .inr List.mem_cons_self
      · exact .inr (List.mem_cons_of_mem _ later)

/-- Each entry of the mapping is an explicit entry of the hash or an entry of a source. -/
theorem mem_resolved {hash : YamlHash} {entry : Value × Value} (member : entry ∈ yamlHashToValue hash [] []) :
    entry ∈ explicitEntries hash ∨ ∃ source ∈ mergeSources hash, entry ∈ yamlHashToValue source [] [] := by
  rw [yamlHashToValue_eq, List.nil_append] at member
  rcases mem_applyMergeValues member with inserted | ⟨mapping, named, inside⟩
  · exact .inl ((mem_foldl_indexMapInsert inserted).resolve_left List.not_mem_nil)
  · obtain ⟨source, known, rfl⟩ := List.mem_map.mp named
    exact .inr ⟨source, known, inside⟩

mutual
/-- A check of each node of a tree is one of each source that the tree names. -/
theorem all_mergeSourcesOf {node : YamlTree → Bool} : ∀ tree : YamlTree, tree.all node = true →
    ∀ source ∈ mergeSourcesOf tree, (DataTree.mapping source).all node = true
  | .leaf _, _ => by simp [mergeSourcesOf]
  | .sequence items, checked => all_allMergeSourcesOf items ((DataTree.all_sequence _ _).mp checked).2
  | .mapping _, checked => by simpa [mergeSourcesOf] using checked

theorem all_allMergeSourcesOf {node : YamlTree → Bool} : ∀ items : List YamlTree,
    (∀ item ∈ items, item.all node = true) →
    ∀ source ∈ allMergeSourcesOf items, (DataTree.mapping source).all node = true
  | [], _ => by simp [allMergeSourcesOf]
  | item :: rest, checked => by
      obtain ⟨first, others⟩ := List.forall_mem_cons.mp checked
      rw [allMergeSourcesOf]
      exact List.forall_mem_append.mpr ⟨all_mergeSourcesOf item first, all_allMergeSourcesOf rest others⟩
end

theorem all_mergeSources {node : YamlTree → Bool} {hash : YamlHash}
    (checked : (DataTree.mapping hash).all node = true) :
    ∀ source ∈ mergeSources hash, (DataTree.mapping source).all node = true := by
  intro source named
  obtain ⟨entry, kept, inside⟩ := List.mem_flatMap.mp named
  have parts := ((DataTree.all_mapping _ _).mp checked).2 entry (List.mem_of_mem_filter kept)
  exact all_mergeSourcesOf _ parts.2 source inside

/-- Only the string of the merge key, and a real with its text, are read as that string. -/
theorem eq_of_yamlToValue_mergeKey {key : YamlTree} (read : yamlToValue key = .leaf (.string mergeKey)) :
    key = .leaf (.string mergeKey) ∨ key = .leaf (.real mergeKey) := by
  match key with
  | .leaf (.string text) => exact .inl (by simpa [yamlToValue, nodeToScalar] using read)
  | .leaf (.real text) =>
      right
      rw [yamlToValue, nodeToScalar, realToScalar] at read
      split at read
      · simp at read
      · dsimp only at read
        split_ifs at read
        · cases read
        · cases read
        · cases read
        · exact congrArg (fun text => DataTree.leaf (YamlNode.real text))
            (Scalar.string.inj (DataTree.leaf.inj read))
  | .leaf (.integer _) | .leaf (.boolean _) | .leaf (.alias _) | .leaf .null | .leaf .badValue =>
      simp [yamlToValue, nodeToScalar] at read
  | .sequence _ | .mapping _ => simp [yamlToValue] at read

/-- What the entries of a mapping are, when no mapping in it has the string of the merge key as a key. -/
theorem all_noMergeKey_iff (entries : Mapping) : (DataTree.mapping entries).all noMergeKeyNode = true ↔
    ∀ entry ∈ entries, entry.1 ≠ .leaf (.string mergeKey) ∧
      entry.1.all noMergeKeyNode = true ∧ entry.2.all noMergeKeyNode = true := by
  rw [DataTree.all_mapping, noMergeKeyNode, decide_eq_true_eq]
  constructor
  · rintro ⟨free, parts⟩ entry member
    exact ⟨fun same => free (List.mem_map.mpr ⟨entry, member, same⟩), parts entry member⟩
  · intro each
    refine ⟨?_, fun entry member => (each entry member).2⟩
    intro named
    obtain ⟨entry, member, same⟩ := List.mem_map.mp named
    exact (each entry member).1 same

theorem yamlsToValues_eq (items : List YamlTree) : yamlsToValues items = items.map yamlToValue := by
  induction items with
  | nil => rfl
  | cons item rest ih => rw [yamlsToValues, ih, List.map_cons]

/-- Neither a tree nor a source that it names has a merge key left after its conversion. -/
theorem yamlToValue_noMergeKey (tree : YamlTree) (plain : tree.all plainRealsNode = true) :
    (yamlToValue tree).all noMergeKeyNode = true ∧ ∀ source ∈ mergeSourcesOf tree,
      (DataTree.mapping (yamlHashToValue source [] [])).all noMergeKeyNode = true := by
  induction tree using DataTree.induct with
  | leaf node => exact ⟨rfl, by simp [mergeSourcesOf]⟩
  | sequence items ih =>
      obtain ⟨-, parts⟩ := (DataTree.all_sequence _ _).mp plain
      constructor
      · rw [yamlToValue, yamlsToValues_eq, DataTree.all_sequence]
        refine ⟨rfl, List.forall_mem_map.mpr fun item member => ?_⟩
        exact (ih item member (parts item member)).1
      · have named : mergeSourcesOf (.sequence items) = items.flatMap mergeSourcesOf := by
          rw [mergeSourcesOf]
          clear ih parts plain
          induction items with
          | nil => rfl
          | cons item rest inner => rw [allMergeSourcesOf, inner, List.flatMap_cons]
        rw [named]
        intro source inside
        obtain ⟨item, member, own⟩ := List.mem_flatMap.mp inside
        exact (ih item member (parts item member)).2 source own
  | mapping hash ih =>
      obtain ⟨reals, parts⟩ := (DataTree.all_mapping _ _).mp plain
      have free : (DataTree.mapping (yamlHashToValue hash [] [])).all noMergeKeyNode = true := by
        rw [all_noMergeKey_iff]
        intro entry member
        rcases mem_resolved member with explicit | ⟨source, named, inside⟩
        · obtain ⟨⟨key, value⟩, kept, rfl⟩ := List.mem_map.mp explicit
          obtain ⟨known, unmarked⟩ := List.mem_filter.mp kept
          refine ⟨?_, ((ih _ known).1 (parts _ known).1).1, ((ih _ known).2 (parts _ known).2).1⟩
          intro read
          rcases eq_of_yamlToValue_mergeKey read with marked | real
          · simp [(isMergeKey_iff key).mpr marked] at unmarked
          · rw [plainRealsNode, decide_eq_true_eq] at reals
            exact reals (List.mem_map.mpr ⟨(key, value), known, real⟩)
        · obtain ⟨⟨key, value⟩, kept, own⟩ := List.mem_flatMap.mp named
          have known := List.mem_of_mem_filter kept
          exact (all_noMergeKey_iff _).mp (((ih _ known).2 (parts _ known).2).2 source own) entry inside
      refine ⟨by rwa [yamlToValue], ?_⟩
      intro source own
      rw [mergeSourcesOf, List.mem_singleton] at own
      rwa [own]

end Keys

/-- A lookup finds the explicit entry, and otherwise the first source that has the key, where each source is resolved by
the same rule. No string of the merge key is left as a key unless a real has its text, and the place of the merge key
has no influence. -/
theorem merge_keys_resolved (hash : YamlHash) (scalar : (DataTree.mapping hash).all scalarKeysNode = true) :
    (∀ key, (yamlToValue (.mapping hash)).get? key = ((explicitEntries hash).lookup key).or
      ((mergeSources hash).findSome? fun source => (yamlToValue (.mapping source)).get? key)) ∧
    (∀ source ∈ mergeSources hash, (DataTree.mapping source).all scalarKeysNode = true) ∧
    ((DataTree.mapping hash).all plainRealsNode = true →
      (yamlToValue (.mapping hash)).all noMergeKeyNode = true) ∧
    ∀ (before behind earlier later : YamlHash) (value : YamlTree),
      hash = before ++ (.leaf (.string mergeKey), value) :: behind → earlier ++ later = before ++ behind →
      yamlToValue (.mapping (earlier ++ (.leaf (.string mergeKey), value) :: later)) =
        yamlToValue (.mapping hash) := by
  have distinct : (hash.map (yamlToValue ·.1)).Nodup := by
    have keys := ((DataTree.all_mapping _ _).mp scalar).1
    rw [scalarKeysNode, Bool.and_eq_true, decide_eq_true_eq] at keys
    exact keys.2
  refine ⟨?_, all_mergeSources scalar, fun plain => (yamlToValue_noMergeKey _ plain).1, ?_⟩
  · intro key
    simp only [yamlToValue, Value.get?]
    exact lookup_resolved distinct key
  · intro before behind earlier later value placed moved
    rw [yamlToValue, yamlToValue, resolved_moved distinct placed moved]

/-- The hash `{<<: [{a: 1, b: 2}, {b: 3, c: 4}], b: 5}`, where the merge key stands first. -/
def sampleHash : YamlHash :=
  [(.leaf (.string "<<"), .sequence
      [.mapping [(.leaf (.string "a"), .leaf (.integer 1)), (.leaf (.string "b"), .leaf (.integer 2))],
        .mapping [(.leaf (.string "b"), .leaf (.integer 3)), (.leaf (.string "c"), .leaf (.integer 4))]]),
    (.leaf (.string "b"), .leaf (.integer 5))]

theorem merge_keys_resolved_sample :
    (yamlToValue (.mapping sampleHash)).get? (.leaf (.string "b")) = some (.leaf (.number (.posInt 5))) ∧
    (yamlToValue (.mapping sampleHash)).get? (.leaf (.string "c")) = some (.leaf (.number (.posInt 4))) ∧
    (yamlToValue (.mapping sampleHash)).all noMergeKeyNode = true := by
  obtain ⟨lookups, -, free, -⟩ := merge_keys_resolved sampleHash (by decide)
  exact ⟨(lookups _).trans (by decide), (lookups _).trans (by decide), free (by decide)⟩

/-- A real that is no number is read as a string, also when its text is that of the merge key. -/
theorem real_merge_key_left :
    (DataTree.mapping [(.leaf (.real "<<"), .leaf .null)] : YamlTree).all scalarKeysNode = true ∧
    (yamlToValue (.mapping [(.leaf (.real "<<"), .leaf .null)])).get? (.leaf (.string "<<")) =
      some (.leaf .null) := by
  decide

end Spicebench.Yaml
