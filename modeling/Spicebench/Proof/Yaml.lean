import Spicebench.Construction.Yaml
import Spicebench.Library.Traversal

namespace Spicebench.Yaml

open Library

/-- The values that the types of the source allow: `NegInt` holds negatives, floats are finite, and the keys of a mapping
differ. -/
def wellFormedNode : Value → Bool
  | .leaf (.number (.posInt value)) => value < 2 ^ 64
  | .leaf (.number (.negInt value)) => value < 0
  | .leaf (.number (.float value)) => value.isFinite
  | .mapping entries => (entries.map Prod.fst).Nodup
  | _ => true

/-- The text of a float does not read as an integer, and no key is the merge key. -/
def portableNode : Value → Bool
  | .leaf (.number (.float value)) => (parseI64 value.display).isNone
  | .mapping entries => .leaf (.string mergeKey) ∉ entries.map Prod.fst
  | _ => true

/-- No key is the string of the merge key. -/
def noMergeKeyNode : Value → Bool
  | .mapping entries => .leaf (.string mergeKey) ∉ entries.map Prod.fst
  | _ => true

/-- The text of a real reads as a float only, and the keys of a hash differ. -/
def settledNode : YamlTree → Bool
  | .leaf (.real text) => (parseF64 text.toList).isSome && (parseI64 text.toList).isNone
  | .mapping hash => (hash.map Prod.fst).Nodup
  | _ => true

/-- The library writes the mark of a document before its body, and loads a settled tree from what it has dumped, where
the mark and a newline at the end may be left out and added. -/
structure YamlLibrary.Lawful (library : YamlLibrary) : Prop where
  marked : ∀ tree text, library.dump tree = .ok text →
    ∃ body, text = "---\n".toList ++ body ∧ body.head? ≠ some '\n'
  reloaded : ∀ tree body, tree.all settledNode = true → library.dump tree = .ok ("---\n".toList ++ body) →
    library.load body = .ok [tree] ∧ library.load (body ++ ['\n']) = .ok [tree]

section Maps

variable {Key Item : Type} [DecidableEq Key]

theorem indexMapInsert_new {entries : List (Key × Item)} {key : Key} (fresh : key ∉ entries.map Prod.fst)
    (value : Item) : indexMapInsert entries key value = entries ++ [(key, value)] := if_neg fresh

theorem hashInsert_new {entries : List (Key × Item)} {key : Key} (fresh : key ∉ entries.map Prod.fst)
    (value : Item) : hashInsert entries key value = entries ++ [(key, value)] := by
  rw [hashInsert, List.filter_eq_self.mpr]
  intro entry member
  have differ : entry.1 ≠ key := by
    rintro rfl
    exact fresh (List.mem_map_of_mem member)
  simpa using differ

end Maps

section Rebuild

theorem rebuildItems_eq {items : List Value} (same : ∀ item ∈ items, rebuild item = item) :
    rebuildItems items = items := by
  induction items with
  | nil => rfl
  | cons item rest ih =>
      obtain ⟨first, others⟩ := List.forall_mem_cons.mp same
      rw [rebuildItems, first, ih others]

theorem rebuildEntries_eq {entries done : List (Value × Value)}
    (same : ∀ entry ∈ entries, rebuild entry.1 = entry.1 ∧ rebuild entry.2 = entry.2)
    (distinct : ((done ++ entries).map Prod.fst).Nodup) : rebuildEntries entries done = done ++ entries := by
  induction entries generalizing done with
  | nil => rw [rebuildEntries, List.append_nil]
  | cons entry rest ih =>
      obtain ⟨key, value⟩ := entry
      obtain ⟨⟨keySame, valueSame⟩, others⟩ := List.forall_mem_cons.mp same
      have fresh : key ∉ done.map Prod.fst := by
        rw [List.map_append, List.map_cons] at distinct
        intro member
        exact (List.nodup_append.mp distinct).2.2 key member key List.mem_cons_self rfl
      rw [rebuildEntries, keySame, valueSame, indexMapInsert_new fresh, ih others]
      · rw [List.append_assoc, List.singleton_append]
      · rwa [List.append_assoc, List.singleton_append]

/-- The serde passes change no value that the source can build. -/
theorem rebuild_eq (value : Value) (wellFormed : value.all wellFormedNode = true) : rebuild value = value := by
  induction value using DataTree.induct with
  | leaf scalar =>
      rw [rebuild]
      match scalar with
      | .null | .bool _ | .string _ | .number (.posInt _) | .number (.float _) => rfl
      | .number (.negInt number) =>
          have negative : number < 0 := by simpa [wellFormedNode] using wellFormed
          rw [rebuildScalar, fromI64, if_neg (not_le.mpr negative)]
  | sequence items ih =>
      obtain ⟨-, parts⟩ := (DataTree.all_sequence _ _).mp wellFormed
      rw [rebuild, rebuildItems_eq fun item member => ih item member (parts item member)]
  | mapping entries ih =>
      obtain ⟨distinct, parts⟩ := (DataTree.all_mapping _ _).mp wellFormed
      rw [rebuild, rebuildEntries_eq]
      · rfl
      · intro entry member
        exact ⟨(ih entry member).1 (parts entry member).1, (ih entry member).2 (parts entry member).2⟩
      · simpa [wellFormedNode] using distinct

end Rebuild

section Conversion

/-- A tree that a value was converted to is loaded as it is, and converted back to the value. -/
structure Returns (value : Value) (tree : YamlTree) : Prop where
  settled : tree.all settledNode = true
  back : yamlToValue tree = value

/-- Each scalar comes back from the node that it is converted to. -/
theorem Returns.scalar {scalar : Scalar} (wellFormed : wellFormedNode (.leaf scalar) = true)
    (portable : portableNode (.leaf scalar) = true) {node : YamlNode} (converted : scalarToYaml scalar = .ok node) :
    Returns (.leaf scalar) (.leaf node) := by
  match scalar with
  | .null | .bool _ | .string _ =>
      obtain rfl := Except.ok.inj converted
      exact ⟨rfl, rfl⟩
  | .number (.posInt number) =>
      rw [scalarToYaml] at converted
      split_ifs at converted
      obtain rfl := Except.ok.inj converted
      refine ⟨rfl, ?_⟩
      rw [yamlToValue, nodeToScalar, fromI64, if_pos (Int.natCast_nonneg number), Int.toNat_natCast]
  | .number (.negInt number) =>
      obtain rfl := Except.ok.inj converted
      have negative : number < 0 := by simpa [wellFormedNode] using wellFormed
      refine ⟨rfl, ?_⟩
      rw [yamlToValue, nodeToScalar, fromI64, if_neg (not_le.mpr negative)]
  | .number (.float number) =>
      have finite : number.isFinite = true := wellFormed
      have parsed := parseF64_display finite
      have node_eq : node = .real (String.ofList number.display) := by
        cases number with
        | nan => cases finite
        | infinite negative => cases finite
        | finite negative magnitude nonneg rounded => exact (Except.ok.inj converted).symm
      subst node_eq
      constructor
      · rw [DataTree.all_leaf, settledNode, String.toList_ofList, parsed, Option.isSome_some, Bool.true_and]
        exact portable
      · rw [yamlToValue, nodeToScalar, realToScalar, String.toList_ofList, parsed]

theorem Returns.items {items : List Value} {trees : List YamlTree}
    (each : ∀ item ∈ items, ∀ tree, valueToYaml item = .ok tree → Returns item tree)
    (converted : valuesToYaml items = .ok trees) :
    (∀ tree ∈ trees, tree.all settledNode = true) ∧ yamlsToValues trees = items := by
  induction items generalizing trees with
  | nil =>
      obtain rfl := Except.ok.inj converted
      exact ⟨by simp, rfl⟩
  | cons item rest ih =>
      obtain ⟨first, others⟩ := List.forall_mem_cons.mp each
      obtain ⟨tree, one, afterwards⟩ := bind_eq_ok_iff.mp converted
      obtain ⟨more, following, same⟩ := bind_eq_ok_iff.mp afterwards
      obtain rfl := Except.ok.inj same
      have here := first tree one
      obtain ⟨settled, back⟩ := ih others following
      exact ⟨List.forall_mem_cons.mpr ⟨here.settled, settled⟩, by rw [yamlsToValues, here.back, back]⟩

/-- The hash has the entries of the mapping in their order, since trees of different keys differ. -/
theorem Returns.entries {entries : List (Value × Value)} {done hash : List (YamlTree × YamlTree)}
    (each : ∀ entry ∈ entries, (∀ tree, valueToYaml entry.1 = .ok tree → Returns entry.1 tree) ∧
      ∀ tree, valueToYaml entry.2 = .ok tree → Returns entry.2 tree)
    (distinct : (done.map (fun entry => yamlToValue entry.1) ++ entries.map Prod.fst).Nodup)
    (converted : entriesToYaml entries done = .ok hash) :
    ∃ trees, hash = done ++ trees ∧
      (∀ entry ∈ trees, entry.1.all settledNode = true ∧ entry.2.all settledNode = true) ∧
      trees.map (fun entry => (yamlToValue entry.1, yamlToValue entry.2)) = entries := by
  induction entries generalizing done with
  | nil =>
      obtain rfl := Except.ok.inj converted
      exact ⟨[], by simp, by simp, rfl⟩
  | cons entry rest ih =>
      obtain ⟨key, value⟩ := entry
      obtain ⟨⟨keyReturns, valueReturns⟩, others⟩ := List.forall_mem_cons.mp each
      obtain ⟨keyTree, keyConverted, afterKey⟩ := bind_eq_ok_iff.mp converted
      obtain ⟨valueTree, valueConverted, afterValue⟩ := bind_eq_ok_iff.mp afterKey
      have keyBack := keyReturns keyTree keyConverted
      have valueBack := valueReturns valueTree valueConverted
      have fresh : keyTree ∉ done.map Prod.fst := by
        intro member
        obtain ⟨entry, inside, rfl⟩ := List.mem_map.mp member
        have known : key ∈ done.map fun entry => yamlToValue entry.1 := List.mem_map.mpr ⟨entry, inside, keyBack.back⟩
        exact (List.nodup_append.mp distinct).2.2 key known key (by simp) rfl
      rw [hashInsert_new fresh] at afterValue
      obtain ⟨trees, rfl, settled, back⟩ := ih others (by simpa [keyBack.back] using distinct) afterValue
      refine ⟨(keyTree, valueTree) :: trees, by simp, ?_, ?_⟩
      · exact List.forall_mem_cons.mpr ⟨⟨keyBack.settled, valueBack.settled⟩, settled⟩
      · rw [List.map_cons, back, keyBack.back, valueBack.back]

/-- Without a merge key the pass over a hash inserts its entries only. -/
theorem yamlHashToValue_plain {hash : List (YamlTree × YamlTree)} {map : Mapping}
    (plain : ∀ entry ∈ hash, entry.1 ≠ .leaf (.string mergeKey))
    (distinct : (map.map Prod.fst ++ hash.map fun entry => yamlToValue entry.1).Nodup) :
    yamlHashToValue hash map [] = map ++ hash.map fun entry => (yamlToValue entry.1, yamlToValue entry.2) := by
  induction hash generalizing map with
  | nil => rw [yamlHashToValue, List.map_nil, List.append_nil, applyMergeValues, List.flatten_nil, List.foldl_nil]
  | cons entry rest ih =>
      obtain ⟨key, value⟩ := entry
      obtain ⟨regular, others⟩ := List.forall_mem_cons.mp plain
      have fresh : yamlToValue key ∉ map.map Prod.fst := by
        intro member
        exact (List.nodup_append.mp distinct).2.2 _ member _ (by simp) rfl
      rw [yamlHashToValue, if_neg regular, indexMapInsert_new fresh, ih others (by simpa using distinct)]
      simp

/-- Every portable value comes back from the tree that it is converted to. -/
theorem returns_of_valueToYaml (value : Value) (wellFormed : value.all wellFormedNode = true)
    (portable : value.all portableNode = true) {tree : YamlTree} (converted : valueToYaml value = .ok tree) :
    Returns value tree := by
  induction value using DataTree.induct generalizing tree with
  | leaf scalar =>
      obtain ⟨node, made, same⟩ := bind_eq_ok_iff.mp converted
      obtain rfl := Except.ok.inj same
      exact Returns.scalar wellFormed portable made
  | sequence items ih =>
      obtain ⟨-, sound⟩ := (DataTree.all_sequence _ _).mp wellFormed
      obtain ⟨-, free⟩ := (DataTree.all_sequence _ _).mp portable
      obtain ⟨trees, made, same⟩ := bind_eq_ok_iff.mp converted
      obtain rfl := Except.ok.inj same
      obtain ⟨settled, back⟩ := Returns.items
        (fun item member tree => ih item member (sound item member) (free item member)) made
      exact ⟨(DataTree.all_sequence _ _).mpr ⟨rfl, settled⟩, by rw [yamlToValue, back]⟩
  | mapping entries ih =>
      obtain ⟨distinct, sound⟩ := (DataTree.all_mapping _ _).mp wellFormed
      obtain ⟨unmerged, free⟩ := (DataTree.all_mapping _ _).mp portable
      obtain ⟨hash, made, same⟩ := bind_eq_ok_iff.mp converted
      obtain rfl := Except.ok.inj same
      have nodup : (entries.map Prod.fst).Nodup := by simpa [wellFormedNode] using distinct
      have noMerge : DataTree.leaf (.string mergeKey) ∉ entries.map Prod.fst := by
        simpa only [portableNode, decide_eq_true_eq] using unmerged
      obtain ⟨trees, whole, settled, back⟩ := Returns.entries (fun entry member =>
        ⟨fun tree => (ih entry member).1 (sound entry member).1 (free entry member).1,
          fun tree => (ih entry member).2 (sound entry member).2 (free entry member).2⟩) (by simpa using nodup) made
      obtain rfl : hash = trees := whole
      have keys : hash.map (fun entry => yamlToValue entry.1) = entries.map Prod.fst := by
        rw [← back, List.map_map]
        rfl
      have plain : ∀ entry ∈ hash, entry.1 ≠ .leaf (.string mergeKey) := by
        intro entry member merged
        apply noMerge
        rw [← keys]
        exact List.mem_map.mpr ⟨entry, member, by rw [merged]; rfl⟩
      refine ⟨(DataTree.all_mapping _ _).mpr ⟨?_, settled⟩, ?_⟩
      · rw [settledNode, decide_eq_true_eq]
        apply List.Nodup.of_map yamlToValue
        rw [List.map_map]
        exact keys ▸ nodup
      · rw [yamlToValue, yamlHashToValue_plain plain (by simpa [keys] using nodup), back, List.nil_append]

end Conversion

theorem trimMarks_marked (body : List Char) : trimMarks ("---\n".toList ++ body) = '\n' :: body := rfl

/-- The text of a value is the body of its document, with a newline at the end. -/
theorem emitYaml_eq {library : YamlLibrary} (lawful : library.Lawful) {value : Value} {text : List Char}
    (written : emitYaml library value = .ok text) :
    ∃ tree body, valueToYaml value = .ok tree ∧ library.dump tree = .ok ("---\n".toList ++ body) ∧
      (text = body ∨ text = body ++ ['\n']) := by
  obtain ⟨tree, converted, afterwards⟩ := bind_eq_ok_iff.mp written
  obtain ⟨out, dumped, same⟩ := bind_eq_ok_iff.mp afterwards
  obtain ⟨out, dumped', rfl⟩ : ∃ plain, library.dump tree = .ok plain ∧ plain = out := by
    cases result : library.dump tree with
    | error message => simp [result, Except.mapError] at dumped
    | ok plain => exact ⟨plain, rfl, by simpa [result, Except.mapError] using dumped⟩
  obtain ⟨body, rfl, head⟩ := lawful.marked tree _ dumped'
  refine ⟨tree, body, converted, dumped', ?_⟩
  have kept : ('\n' :: body).dropWhile (· = '\n') = body := by
    cases body with
    | nil => rfl
    | cons first rest => simpa using head
  have result := Except.ok.inj same
  rw [trimMarks_marked, kept] at result
  split_ifs at result
  · exact .inl result.symm
  · exact .inr result.symm

/-- A value comes back from its text when the text of no float reads as an integer and no key is the merge key. -/
theorem yaml_round_trip {library : YamlLibrary} (lawful : library.Lawful) (value : Value)
    (wellFormed : value.all wellFormedNode = true) (portable : value.all portableNode = true) {text : List Char}
    (written : toText library value = .ok text) : fromText library text = .ok value := by
  rw [toText, toValue, rebuild_eq value wellFormed] at written
  obtain ⟨tree, body, converted, dumped, form⟩ := emitYaml_eq lawful written
  have returns := returns_of_valueToYaml value wellFormed portable converted
  obtain ⟨plain, ended⟩ := lawful.reloaded tree body returns.settled dumped
  have loaded : library.load text = .ok [tree] := by
    rcases form with rfl | rfl
    · exact plain
    · exact ended
  have parsed : parseYaml library text = .ok value := by
    rw [parseYaml, loaded]
    exact congrArg Except.ok returns.back
  rw [fromText, parsed]
  exact congrArg Except.ok (rebuild_eq value wellFormed)

/-- A library that knows one document, and loads it as the given tree. -/
def oneDocument (dumped loaded : YamlTree) (body : String) : YamlLibrary where
  dump tree := if tree = dumped then .ok ("---\n".toList ++ body.toList) else .error "unknown tree"
  load text := if text = body.toList ∨ text = body.toList ++ ['\n'] then .ok [loaded] else .error "unknown text"

theorem oneDocument_lawful {dumped loaded : YamlTree} {body : String} (start : body.toList.head? ≠ some '\n')
    (settled : dumped.all settledNode = true → loaded = dumped) : (oneDocument dumped loaded body).Lawful := by
  constructor
  · intro tree text written
    unfold oneDocument at written
    dsimp only at written
    split_ifs at written
    exact ⟨body.toList, (Except.ok.inj written).symm, start⟩
  · intro tree other calm written
    unfold oneDocument at written
    dsimp only at written
    split_ifs at written with same
    subst same
    obtain rfl := List.append_cancel_left (Except.ok.inj written)
    simp [oneDocument, settled calm]

/-- The mapping `a: [~, -3, 1.5]`. -/
def sampleValue : Value :=
  .mapping [(.leaf (.string "a"), .sequence [.leaf .null, .leaf (.number (.negInt (-3))),
    .leaf (.number (.float (.finite false (3 / 2) (by norm_num) (by decide +kernel))))])]

def sampleTree : YamlTree :=
  .mapping [(.leaf (.string "a"), .sequence [.leaf .null, .leaf (.integer (-3)), .leaf (.real "1.5")])]

theorem yaml_round_trip_sample :
    fromText (oneDocument sampleTree sampleTree "a:\n  - ~\n  - -3\n  - 1.5")
      "a:\n  - ~\n  - -3\n  - 1.5\n".toList = .ok sampleValue :=
  yaml_round_trip (oneDocument_lawful (by decide) fun _ => rfl) sampleValue (by decide) (by decide +kernel)
    (by decide +kernel)

/-- The mapping whose one key is the merge key, and the float one. -/
def mergeValue : Value := .mapping [(.leaf (.string "<<"), .leaf (.number (.posInt 1)))]

def oneValue : Value := .leaf (.number (.float (.finite false 1 (by norm_num) (by decide +kernel))))

/-- A merge key is taken away, and the float one comes back as an integer. -/
theorem yaml_round_trip_changes :
    (∃ library text, library.Lawful ∧ mergeValue.all wellFormedNode = true ∧ toText library mergeValue = .ok text ∧
      fromText library text = .ok (.mapping [])) ∧
    ∃ library text, library.Lawful ∧ oneValue.all wellFormedNode = true ∧ toText library oneValue = .ok text ∧
      fromText library text = .ok (.leaf (.number (.posInt 1))) := by
  constructor
  · refine ⟨oneDocument (.mapping [(.leaf (.string "<<"), .leaf (.integer 1))])
      (.mapping [(.leaf (.string "<<"), .leaf (.integer 1))]) "\"<<\": 1", "\"<<\": 1\n".toList,
      oneDocument_lawful (by decide) fun _ => rfl, ?_⟩
    decide
  · refine ⟨oneDocument (.leaf (.real "1")) (.leaf (.integer 1)) "1", "1\n".toList,
      oneDocument_lawful (by decide) fun settled => absurd settled (by decide), ?_⟩
    decide +kernel

end Spicebench.Yaml
