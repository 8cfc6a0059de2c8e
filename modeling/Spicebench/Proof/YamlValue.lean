import Spicebench.Construction.YamlValue
import Mathlib

namespace Spicebench.YamlValue

section Parts

variable {motive : Value → Prop} (scalar : ∀ value, motive (.scalar value))
  (sequence : ∀ items, (∀ item ∈ items, motive item) → motive (.sequence items))
  (mapping : ∀ table entries, (∀ entry ∈ entries, motive entry.1 ∧ motive entry.2) → motive (.mapping table entries))

include scalar sequence mapping

mutual
/-- What holds of a value once it holds of its parts holds of every value. -/
theorem Value.induct : ∀ value, motive value
  | .scalar value => scalar value
  | .sequence items => sequence items (inductItems items)
  | .mapping table entries => mapping table entries (inductEntries entries)

theorem inductItems : ∀ items : List Value, ∀ item ∈ items, motive item
  | [] => by simp
  | item :: rest => List.forall_mem_cons.mpr ⟨Value.induct item, inductItems rest⟩

theorem inductEntries : ∀ entries : List (Value × Value), ∀ entry ∈ entries, motive entry.1 ∧ motive entry.2
  | [] => by simp
  | (key, value) :: rest => List.forall_mem_cons.mpr ⟨⟨Value.induct key, Value.induct value⟩, inductEntries rest⟩
end

end Parts

section Alike

mutual
/-- The values are equal up to the order of entries, at every depth. -/
def Alike : Value → Value → Prop
  | .scalar value, .scalar other => value = other
  | .sequence items, .sequence others => AlikeItems items others
  | .mapping _ entries, .mapping _ others =>
      ∃ arranged : List (Value × Value), arranged.Perm others ∧ AlikeEntries entries arranged
  | _, _ => False

def AlikeItems : List Value → List Value → Prop
  | [], [] => True
  | item :: rest, other :: others => Alike item other ∧ AlikeItems rest others
  | _, _ => False

def AlikeEntries : List (Value × Value) → List (Value × Value) → Prop
  | [], [] => True
  | (key, value) :: rest, other :: others =>
      (Alike key other.1 ∧ Alike value other.2) ∧ AlikeEntries rest others
  | _, _ => False
end

example (table : Table) (key value : Scalar) :
    Alike (.sequence [.mapping table [(.scalar key, .scalar value)]])
      (.sequence [.mapping table [(.scalar key, .scalar value)]]) := by
  simp [Alike, AlikeItems, AlikeEntries]

def AlikeEntry (entry other : Value × Value) : Prop := Alike entry.1 other.1 ∧ Alike entry.2 other.2

theorem alikeItems_iff (items others : List Value) : AlikeItems items others ↔ List.Forall₂ Alike items others := by
  induction items generalizing others with
  | nil => cases others <;> simp [AlikeItems]
  | cons item rest ih => cases others <;> simp [AlikeItems, ih]

theorem alikeEntries_iff (entries others : List (Value × Value)) :
    AlikeEntries entries others ↔ List.Forall₂ AlikeEntry entries others := by
  induction entries generalizing others with
  | nil => cases others <;> simp [AlikeEntries]
  | cons entry rest ih => cases others <;> simp [AlikeEntries, AlikeEntry, ih]

@[simp] theorem alike_scalar_iff (value : Scalar) (other : Value) :
    Alike (.scalar value) other ↔ other = .scalar value := by
  cases other <;> simp [Alike, eq_comm]

theorem alike_sequence_iff (items : List Value) (other : Value) : Alike (.sequence items) other ↔
    ∃ others, other = .sequence others ∧ List.Forall₂ Alike items others := by
  cases other <;> simp [Alike, alikeItems_iff]

theorem alike_mapping_iff (table : Table) (entries : List (Value × Value)) (other : Value) :
    Alike (.mapping table entries) other ↔ ∃ otherTable others arranged, other = .mapping otherTable others ∧
      arranged.Perm others ∧ List.Forall₂ AlikeEntry entries arranged := by
  cases other <;> simp [Alike, alikeEntries_iff]

theorem alike_refl (value : Value) : Alike value value := by
  induction value using Value.induct with
  | scalar value => exact (alike_scalar_iff _ _).mpr rfl
  | sequence items ih =>
      rw [alike_sequence_iff]
      exact ⟨items, rfl, List.forall₂_same.mpr ih⟩
  | mapping table entries ih =>
      rw [alike_mapping_iff]
      exact ⟨table, entries, entries, rfl, .refl _, List.forall₂_same.mpr ih⟩

/-- Two relations on lists of one length compose to the relation that they compose to on the members. -/
theorem forall₂_comp {First Second Third : Type} {one : First → Second → Prop} {two : Second → Third → Prop}
    {both : First → Third → Prop} {firsts : List First} {seconds : List Second} {thirds : List Third}
    (compose : ∀ first ∈ firsts, ∀ second third, one first second → two second third → both first third)
    (left : List.Forall₂ one firsts seconds) (right : List.Forall₂ two seconds thirds) :
    List.Forall₂ both firsts thirds := by
  induction left generalizing thirds with
  | nil =>
      cases right
      exact .nil
  | cons related _ ih =>
      obtain ⟨here, later⟩ := List.forall_mem_cons.mp compose
      cases right with
      | cons follows rest => exact .cons (here _ _ related follows) (ih later rest)

theorem alike_symm {a b : Value} (alike : Alike a b) : Alike b a := by
  induction a using Value.induct generalizing b with
  | scalar value =>
      rw [alike_scalar_iff] at alike
      rw [alike]
      exact alike_refl _
  | sequence items ih =>
      obtain ⟨others, rfl, pairs⟩ := (alike_sequence_iff _ _).mp alike
      rw [alike_sequence_iff]
      have turned : List.Forall₂ (flip Alike) items others :=
        ((List.forall₂_and_left _ _).mpr ⟨ih, pairs⟩).imp fun item other both => both.1 both.2
      exact ⟨items, rfl, turned.flip⟩
  | mapping table entries ih =>
      obtain ⟨otherTable, others, arranged, rfl, permuted, pairs⟩ := (alike_mapping_iff _ _ _).mp alike
      have turned : List.Forall₂ (flip AlikeEntry) entries arranged :=
        ((List.forall₂_and_left _ _).mpr ⟨ih, pairs⟩).imp fun entry other both => ⟨both.1.1 both.2.1, both.1.2 both.2.2⟩
      obtain ⟨found, same, back⟩ := List.perm_comp_forall₂ permuted.symm turned.flip
      rw [alike_mapping_iff]
      exact ⟨table, entries, found, rfl, back, same⟩

theorem alike_trans {a b c : Value} (first : Alike a b) (second : Alike b c) : Alike a c := by
  induction a using Value.induct generalizing b c with
  | scalar value =>
      rw [alike_scalar_iff] at first
      rwa [first] at second
  | sequence items ih =>
      obtain ⟨others, rfl, pairs⟩ := (alike_sequence_iff _ _).mp first
      obtain ⟨last, rfl, more⟩ := (alike_sequence_iff _ _).mp second
      rw [alike_sequence_iff]
      have compose : ∀ item ∈ items, ∀ other third, Alike item other → Alike other third → Alike item third :=
        fun item member _ _ => ih item member
      exact ⟨last, rfl, forall₂_comp compose pairs more⟩
  | mapping table entries ih =>
      obtain ⟨otherTable, others, arranged, rfl, permuted, pairs⟩ := (alike_mapping_iff _ _ _).mp first
      obtain ⟨lastTable, last, rearranged, rfl, repermuted, more⟩ := (alike_mapping_iff _ _ _).mp second
      obtain ⟨moved, inner, outer⟩ := List.perm_comp_forall₂ permuted more
      rw [alike_mapping_iff]
      have compose : ∀ entry ∈ entries, ∀ other third, AlikeEntry entry other → AlikeEntry other third →
          AlikeEntry entry third := fun entry member _ _ one two =>
        ⟨(ih entry member).1 one.1 two.1, (ih entry member).2 one.2 two.2⟩
      exact ⟨lastTable, last, moved, rfl, outer.trans repermuted, forall₂_comp compose pairs inner⟩

end Alike

section Nodes

/-- A node of a value without what is below it. -/
inductive Node where
  | scalar (value : Scalar)
  | sequence (length : ℕ)
  | mapping
  deriving DecidableEq

mutual
/-- The nodes of a value, where those of the entries follow each other in the order of the entries. -/
def Value.nodes : Value → List Node
  | .scalar value => [.scalar value]
  | .sequence items => .sequence items.length :: nodesOfItems items
  | .mapping _ entries => .mapping :: nodesOfEntries entries

def nodesOfItems : List Value → List Node
  | [] => []
  | item :: rest => item.nodes ++ nodesOfItems rest

def nodesOfEntries : List (Value × Value) → List Node
  | [] => []
  | (key, value) :: rest => key.nodes ++ value.nodes ++ nodesOfEntries rest
end

def Value.size (value : Value) : ℕ := value.nodes.length

def entrySize (entry : Value × Value) : ℕ := entry.1.size + entry.2.size

theorem size_sequence (items : List Value) : (Value.sequence items).size = (items.map Value.size).sum + 1 := by
  rw [Value.size, Value.nodes, List.length_cons]
  congr 1
  induction items with
  | nil => rfl
  | cons item rest ih => rw [nodesOfItems, List.length_append, ih, List.map_cons, List.sum_cons, Value.size]

theorem size_mapping (table : Table) (entries : List (Value × Value)) :
    (Value.mapping table entries).size = (entries.map entrySize).sum + 1 := by
  rw [Value.size, Value.nodes, List.length_cons]
  congr 1
  induction entries with
  | nil => rfl
  | cons entry rest ih =>
      rw [nodesOfEntries, List.length_append, List.length_append, ih, List.map_cons, List.sum_cons, entrySize,
        Value.size, Value.size]

theorem size_item_lt {items : List Value} {item : Value} (member : item ∈ items) :
    item.size < (Value.sequence items).size := by
  have part := List.le_sum_of_mem (List.mem_map_of_mem (f := Value.size) member)
  rw [size_sequence]
  omega

theorem size_entry_lt (table : Table) {entries : List (Value × Value)} {entry : Value × Value}
    (member : entry ∈ entries) :
    entry.1.size < (Value.mapping table entries).size ∧ entry.2.size < (Value.mapping table entries).size := by
  have part := List.le_sum_of_mem (List.mem_map_of_mem (f := entrySize) member)
  rw [size_mapping]
  rw [entrySize] at part
  omega

theorem forall₂_congr {First Second : Type} {one two : First → Second → Prop} {firsts : List First}
    {seconds : List Second} (same : ∀ first ∈ firsts, ∀ second ∈ seconds, one first second ↔ two first second) :
    List.Forall₂ one firsts seconds ↔ List.Forall₂ two firsts seconds := by
  rw [List.forall₂_iff_zip, List.forall₂_iff_zip]
  refine and_congr_right fun _ => forall_congr' fun first => forall_congr' fun second => forall_congr' fun zipped => ?_
  obtain ⟨left, right⟩ := List.of_mem_zip zipped
  exact same first left second right

theorem exists_of_forall₂ {First Second : Type} {related : First → Second → Prop} {firsts : List First}
    {seconds : List Second} (all : List.Forall₂ related firsts seconds) {first : First} (member : first ∈ firsts) :
    ∃ second ∈ seconds, related first second := by
  induction all with
  | nil => cases member
  | cons here _ ih =>
      rcases List.mem_cons.mp member with rfl | later
      · exact ⟨_, List.mem_cons_self, here⟩
      · obtain ⟨second, inside, relates⟩ := ih later
        exact ⟨second, List.mem_cons_of_mem _ inside, relates⟩

theorem map_eq_of_forall₂ {Part : Type} {measure : Part → ℕ} {parts others : List Part}
    (same : List.Forall₂ (fun part other => measure part = measure other) parts others) :
    parts.map measure = others.map measure := by
  induction same with
  | nil => rfl
  | cons here _ ih => rw [List.map_cons, List.map_cons, here, ih]

/-- Values that are alike have equally many nodes. -/
theorem size_eq_of_alike {a b : Value} (alike : Alike a b) : a.size = b.size := by
  induction a using Value.induct generalizing b with
  | scalar value =>
      rw [alike_scalar_iff] at alike
      rw [alike]
  | sequence items ih =>
      obtain ⟨others, rfl, pairs⟩ := (alike_sequence_iff _ _).mp alike
      have sizes : List.Forall₂ (fun item other => item.size = other.size) items others :=
        ((List.forall₂_and_left _ _).mpr ⟨ih, pairs⟩).imp fun item other both => both.1 both.2
      rw [size_sequence, size_sequence, map_eq_of_forall₂ sizes]
  | mapping table entries ih =>
      obtain ⟨otherTable, others, arranged, rfl, permuted, pairs⟩ := (alike_mapping_iff _ _ _).mp alike
      have sizes : List.Forall₂ (fun entry other => entrySize entry = entrySize other) entries arranged :=
        ((List.forall₂_and_left _ _).mpr ⟨ih, pairs⟩).imp fun entry other both =>
          congrArg₂ (· + ·) (both.1.1 both.2.1) (both.1.2 both.2.2)
      rw [size_mapping, size_mapping, map_eq_of_forall₂ sizes, (permuted.map entrySize).sum_eq]

end Nodes

section Writes

def Node.writes : Node → List Write
  | .scalar value => value.hash
  | .sequence length => [.u8 4, .lengthPrefix length]
  | .mapping => [.u8 5]

mutual
/-- A hash writes the nodes one after another. -/
theorem hash_eq_flatMap : ∀ value : Value, value.hash = value.nodes.flatMap Node.writes
  | .scalar value => by simp [Value.hash, Value.nodes, Node.writes]
  | .sequence items => by simp [Value.hash, Value.nodes, Node.writes, hashItems_eq_flatMap items]
  | .mapping _ entries => by simp [Value.hash, Value.nodes, Node.writes, hashEntries_eq_flatMap entries]

theorem hashItems_eq_flatMap : ∀ items, hashItems items = (nodesOfItems items).flatMap Node.writes
  | [] => rfl
  | item :: rest => by
      rw [hashItems, nodesOfItems, List.flatMap_append, hash_eq_flatMap item, hashItems_eq_flatMap rest]

theorem hashEntries_eq_flatMap : ∀ entries, hashEntries entries = (nodesOfEntries entries).flatMap Node.writes
  | [] => rfl
  | (key, value) :: rest => by
      rw [hashEntries, nodesOfEntries, List.flatMap_append, List.flatMap_append, hash_eq_flatMap key,
        hash_eq_flatMap value, hashEntries_eq_flatMap rest]
end

theorem Number.hash_append_inj {a b : Number} {rest others : List Write} (same : a.hash ++ rest = b.hash ++ others) :
    a = b ∧ rest = others := by
  cases a <;> cases b <;> simp_all [Number.hash]

/-- The writes of a node tell where they end. -/
theorem Node.writes_append_inj {a b : Node} {rest others : List Write}
    (same : a.writes ++ rest = b.writes ++ others) : a = b ∧ rest = others := by
  cases a with
  | scalar first =>
      cases b with
      | scalar second =>
          cases first <;> cases second <;> simp [Node.writes, Scalar.hash] at same ⊢
          case null.null => exact same
          case bool.bool one two => cases one <;> cases two <;> simp_all
          case number.number => exact Number.hash_append_inj same
          case string.string => exact same
      | sequence length => cases first <;> simp [Node.writes, Scalar.hash] at same
      | mapping => cases first <;> simp [Node.writes, Scalar.hash] at same
  | sequence length =>
      cases b with
      | scalar second => cases second <;> simp [Node.writes, Scalar.hash] at same
      | sequence other => simpa [Node.writes] using same
      | mapping => simp [Node.writes] at same
  | mapping =>
      cases b with
      | scalar second => cases second <;> simp [Node.writes, Scalar.hash] at same
      | sequence other => simp [Node.writes] at same
      | mapping => simpa [Node.writes] using same

theorem Node.writes_ne_nil (node : Node) : node.writes ≠ [] := by
  cases node with
  | scalar value => cases value <;> simp [Node.writes, Scalar.hash]
  | sequence length => simp [Node.writes]
  | mapping => simp [Node.writes]

theorem flatMap_writes_inj {nodes others : List Node} (same : nodes.flatMap Node.writes = others.flatMap Node.writes) :
    nodes = others := by
  induction nodes generalizing others with
  | nil =>
      cases others with
      | nil => rfl
      | cons other others => exact absurd same.symm (by simp [Node.writes_ne_nil])
  | cons node rest ih =>
      cases others with
      | nil => exact absurd same (by simp [Node.writes_ne_nil])
      | cons other others =>
          obtain ⟨rfl, behind⟩ := Node.writes_append_inj same
          rw [ih behind]

/-- The same writes are the same nodes in the same order. -/
theorem hash_eq_iff (a b : Value) : a.hash = b.hash ↔ a.nodes = b.nodes := by
  rw [hash_eq_flatMap, hash_eq_flatMap]
  exact ⟨flatMap_writes_inj, congrArg _⟩

end Writes

section Lookup

theorem findAt_isSome {positions : List ℕ} {entries : List (Value × Value)} {accepts : Value → Bool} {position : ℕ}
    {entry : Value × Value} (tried : position ∈ positions) (placed : entries[position]? = some entry)
    (accepted : accepts entry.1 = true) : ∃ found, findAt positions entries accepts = some found := by
  have reached : entry ∈ positions.filterMap fun position => entries[position]? :=
    List.mem_filterMap.mpr ⟨position, tried, placed⟩
  have hit : ((positions.filterMap fun position => entries[position]?).find?
      fun entry : Value × Value => accepts entry.1).isSome = true := List.find?_isSome.mpr ⟨entry, reached, accepted⟩
  obtain ⟨found, same⟩ := Option.isSome_iff_exists.mp hit
  exact ⟨found.2, by rw [findAt, same, Option.map_some]⟩

theorem of_findAt {positions : List ℕ} {entries : List (Value × Value)} {accepts : Value → Bool} {value : Value}
    (found : findAt positions entries accepts = some value) :
    ∃ entry ∈ entries, accepts entry.1 = true ∧ entry.2 = value := by
  obtain ⟨entry, first, rfl⟩ := Option.map_eq_some_iff.mp found
  obtain ⟨position, -, placed⟩ := List.mem_filterMap.mp (List.mem_of_find?_eq_some first)
  have accepted : accepts entry.1 = true := (List.find?_eq_some_iff_append.mp first).1
  exact ⟨entry, List.mem_of_getElem? placed, accepted, rfl⟩

/-- The table leads each key to its place, and no insertion has kept two equal keys with the same writes. -/
structure Tabled (table : Table) (entries : List (Value × Value)) : Prop where
  stored : ∀ position entry, entries[position]? = some entry → position ∈ table entry.1.hash
  distinct : entries.Pairwise fun first second => first.1.hash = second.1.hash →
    ¬(first.1.eq second.1 = true ∧ second.1.eq first.1 = true)

/-- A collection of values with all their parts, whose mappings are built by insertions. -/
structure Collection (values : Set Value) : Prop where
  items : ∀ items, .sequence items ∈ values → ∀ item ∈ items, item ∈ values
  entries : ∀ table entries, .mapping table entries ∈ values → ∀ entry ∈ entries, entry.1 ∈ values ∧ entry.2 ∈ values
  tabled : ∀ table entries, .mapping table entries ∈ values → Tabled table entries

/-- What is promised of the equality and the hash: equal values have the same writes, the equality is an equivalence
relation, and a lookup finds the entry of an equal key. -/
structure Contract (values : Set Value) : Prop where
  hash_eq : ∀ a ∈ values, ∀ b ∈ values, a.eq b = true → a.hash = b.hash
  refl : ∀ a ∈ values, a.eq a = true
  symm : ∀ a ∈ values, ∀ b ∈ values, a.eq b = true → b.eq a = true
  trans : ∀ a ∈ values, ∀ b ∈ values, ∀ c ∈ values, a.eq b = true → b.eq c = true → a.eq c = true
  found : ∀ table entries, .mapping table entries ∈ values → ∀ key ∈ values, ∀ entry ∈ entries,
    key.eq entry.1 = true → get table entries key = some entry.2

/-- The order of entries does not show in the nodes of values that are alike. -/
def OrderHidden (values : Set Value) : Prop := ∀ a ∈ values, ∀ b ∈ values, Alike a b → a.nodes = b.nodes

end Lookup

section Equality

theorem Scalar.eq_iff (a b : Scalar) : a.eq b = true ↔ a = b := by
  have numbers : ∀ one two : Number, one.eq two = true ↔ one = two := by
    intro one two
    cases one <;> cases two <;> simp [Number.eq]
  cases a <;> cases b <;> simp [Scalar.eq, numbers]

theorem eqItems_iff (items others : List Value) :
    eqItems items others = true ↔ List.Forall₂ (fun item other => item.eq other = true) items others := by
  induction items generalizing others with
  | nil => cases others <;> simp [eqItems]
  | cons item rest ih => cases others <;> simp [eqItems, ih]

theorem eqEntries_iff (entries : List (Value × Value)) (table : Table) (others : List (Value × Value)) :
    eqEntries entries table others = true ↔
      ∀ entry ∈ entries, ∃ found, get table others entry.1 = some found ∧ entry.2.eq found = true := by
  induction entries with
  | nil => simp [eqEntries]
  | cons entry rest ih =>
      obtain ⟨key, value⟩ := entry
      have finds : findAt (table key.hash) others (fun other => key.eq other) = get table others key := rfl
      rw [eqEntries, Bool.and_eq_true, ih, List.forall_mem_cons, finds]
      refine and_congr_left' ?_
      cases get table others key <;> simp

theorem eq_mapping_iff (table otherTable : Table) (entries others : List (Value × Value)) :
    (Value.mapping table entries).eq (.mapping otherTable others) = true ↔ entries.length = others.length ∧
      ∀ entry ∈ entries, ∃ found, get otherTable others entry.1 = some found ∧ entry.2.eq found = true := by
  rw [Value.eq, Bool.and_eq_true, beq_iff_eq, eqEntries_iff]

/-- The keys of the entries are not alike. -/
def Apart (first second : Value × Value) : Prop := ¬Alike first.1 second.1

instance : Std.Symm Apart := ⟨fun _ _ unlike alike => unlike (alike_symm alike)⟩

theorem ne_of_apart {first second : Value × Value} (apart : Apart first second) : first ≠ second := by
  rintro rfl
  exact apart (alike_refl _)

instance : Inhabited Value := ⟨.scalar .null⟩

variable {values : Set Value} (collection : Collection values)
  (hashed : ∀ a ∈ values, ∀ b ∈ values, a.eq b = true → Alike a b → a.hash = b.hash)

include collection hashed

/-- The keys of a mapping differ, also up to the order of entries. -/
theorem keys_apart {table : Table} {entries : List (Value × Value)} (member : .mapping table entries ∈ values)
    (decided : ∀ entry ∈ entries, ∀ other ∈ values, entry.1.eq other = true ↔ Alike entry.1 other) :
    entries.Pairwise Apart := by
  refine (collection.tabled table entries member).distinct.imp_of_mem ?_
  intro first second inside later distinct alike
  have one := (collection.entries table entries member first inside).1
  have two := (collection.entries table entries member second later).1
  have equal := (decided first inside _ two).mpr alike
  exact distinct (hashed _ one _ two equal alike) ⟨equal, (decided second later _ one).mpr (alike_symm alike)⟩

/-- A key finds the entry whose key is alike. -/
theorem get_of_alike {table : Table} {entries : List (Value × Value)} (member : .mapping table entries ∈ values)
    (apart : entries.Pairwise Apart) {key : Value} (known : key ∈ values)
    (decided : ∀ other ∈ values, key.eq other = true ↔ Alike key other) {entry : Value × Value}
    (inside : entry ∈ entries) (alike : Alike key entry.1) : get table entries key = some entry.2 := by
  have own := (collection.entries table entries member entry inside).1
  have equal := (decided _ own).mpr alike
  obtain ⟨position, placed⟩ := List.mem_iff_getElem?.mp inside
  have tried := (collection.tabled table entries member).stored position entry placed
  rw [← hashed key known _ own equal alike] at tried
  obtain ⟨value, found⟩ := findAt_isSome tried placed equal
  obtain ⟨other, reached, accepted, rfl⟩ := of_findAt found
  have same : other = entry := by
    by_contra differ
    have third := (decided _ (collection.entries table entries member other reached).1).mp accepted
    exact apart.forall reached inside differ (alike_trans (alike_symm third) alike)
  rw [get, found, same]

/-- Mappings that are equal for the code are alike, once this is known of their keys and values. -/
theorem alike_of_eq_mapping {table otherTable : Table} {entries others : List (Value × Value)}
    (first : .mapping table entries ∈ values) (second : .mapping otherTable others ∈ values)
    (decided : ∀ entry ∈ entries, ∀ other ∈ values,
      (entry.1.eq other = true ↔ Alike entry.1 other) ∧ (entry.2.eq other = true ↔ Alike entry.2 other))
    (equal : (Value.mapping table entries).eq (.mapping otherTable others) = true) :
    Alike (.mapping table entries) (.mapping otherTable others) := by
  obtain ⟨sizes, looked⟩ := (eq_mapping_iff _ _ _ _).mp equal
  have exists_partner : ∀ entry ∈ entries, ∃ other ∈ others, AlikeEntry entry other := by
    intro entry inside
    obtain ⟨found, got, same⟩ := looked entry inside
    obtain ⟨other, among, accepted, rfl⟩ := of_findAt got
    obtain ⟨key, value⟩ := collection.entries _ _ second other among
    exact ⟨other, among, (decided entry inside _ key).1.mp accepted, (decided entry inside _ value).2.mp same⟩
  choose! partner among alike using exists_partner
  have apart : (entries.map partner).Pairwise Apart := by
    rw [List.pairwise_map]
    have keys := keys_apart collection hashed first fun entry inside other known => (decided entry inside other known).1
    refine keys.imp_of_mem fun {one two} inside later unlike same => unlike ?_
    exact alike_trans (alike_trans (alike one inside).1 same) (alike_symm (alike two later).1)
  have subset : entries.map partner ⊆ others := by
    intro other member
    obtain ⟨entry, inside, rfl⟩ := List.mem_map.mp member
    exact among entry inside
  have permuted : (entries.map partner).Perm others :=
    (List.subperm_of_subset (apart.imp ne_of_apart) subset).perm_of_length_le (by rw [List.length_map, sizes])
  rw [alike_mapping_iff]
  exact ⟨otherTable, others, entries.map partner, rfl, permuted,
    List.forall₂_map_right_iff.mpr (List.forall₂_same.mpr alike)⟩

/-- Mappings that are alike are equal for the code, once this is known of their keys and values. -/
theorem eq_of_alike_mapping {table otherTable : Table} {entries others : List (Value × Value)}
    (first : .mapping table entries ∈ values) (second : .mapping otherTable others ∈ values)
    (decided : ∀ entry ∈ entries, ∀ other ∈ values,
      (entry.1.eq other = true ↔ Alike entry.1 other) ∧ (entry.2.eq other = true ↔ Alike entry.2 other))
    (apart : others.Pairwise Apart) (alike : Alike (.mapping table entries) (.mapping otherTable others)) :
    (Value.mapping table entries).eq (.mapping otherTable others) = true := by
  obtain ⟨_, _, arranged, same, permuted, pairs⟩ := (alike_mapping_iff _ _ _).mp alike
  obtain ⟨rfl, rfl⟩ := Value.mapping.inj same
  rw [eq_mapping_iff]
  refine ⟨pairs.length_eq.trans permuted.length_eq, fun entry inside => ?_⟩
  obtain ⟨other, member, keys, items⟩ := exists_of_forall₂ pairs inside
  have among := permuted.mem_iff.mp member
  have known := (collection.entries _ _ first entry inside).1
  refine ⟨other.2, get_of_alike collection hashed second apart known
    (fun third own => (decided entry inside third own).1) among keys, ?_⟩
  exact (decided entry inside _ (collection.entries _ _ second other among).2).2.mpr items

/-- The equality of the code is the one up to the order of entries, by induction on the number of nodes. -/
theorem eq_iff_alike {a b : Value} (first : a ∈ values) (second : b ∈ values) : a.eq b = true ↔ Alike a b := by
  induction size : a.size using Nat.strong_induction_on generalizing a b with
  | _ bound ih =>
      subst size
      cases a with
      | scalar value =>
          rw [alike_scalar_iff]
          cases b with
          | scalar other => rw [Value.eq, Scalar.eq_iff, Value.scalar.injEq, eq_comm]
          | sequence others => simp [Value.eq]
          | mapping table others => simp [Value.eq]
      | sequence items =>
          rw [alike_sequence_iff]
          cases b with
          | scalar other => simp [Value.eq]
          | mapping table others => simp [Value.eq]
          | sequence others =>
              rw [Value.eq, eqItems_iff, forall₂_congr fun item inside other among => ih item.size (size_item_lt inside)
                (collection.items items first item inside) (collection.items others second other among) rfl]
              simp
      | mapping table entries =>
          cases b with
          | scalar other => simp [Value.eq, alike_mapping_iff]
          | sequence others => simp [Value.eq, alike_mapping_iff]
          | mapping otherTable others =>
              have decided : ∀ entry ∈ entries, ∀ other ∈ values,
                  (entry.1.eq other = true ↔ Alike entry.1 other) ∧
                    (entry.2.eq other = true ↔ Alike entry.2 other) := by
                intro entry inside other known
                obtain ⟨key, value⟩ := collection.entries table entries first entry inside
                obtain ⟨keySmaller, valueSmaller⟩ := size_entry_lt table inside
                exact ⟨ih _ keySmaller key known rfl, ih _ valueSmaller value known rfl⟩
              refine ⟨alike_of_eq_mapping collection hashed first second decided, fun alike => ?_⟩
              -- the keys of the other mapping are as small, because mappings that are alike have equally many nodes
              have apart := keys_apart collection hashed second fun entry inside other known =>
                ih entry.1.size ((size_entry_lt otherTable inside).1.trans_eq (size_eq_of_alike alike).symm)
                  (collection.entries otherTable others second entry inside).1 known rfl
              exact eq_of_alike_mapping collection hashed first second decided apart alike

end Equality

/-- The contract holds of a collection exactly when the order of entries does not show. -/
theorem contract_iff_orderHidden {values : Set Value} (collection : Collection values) :
    Contract values ↔ OrderHidden values := by
  constructor
  · intro contract a first b second alike
    have hashed : ∀ a ∈ values, ∀ b ∈ values, a.eq b = true → Alike a b → a.hash = b.hash :=
      fun a one b two equal _ => contract.hash_eq a one b two equal
    have equal := (eq_iff_alike collection hashed first second).mpr alike
    exact (hash_eq_iff a b).mp (contract.hash_eq a first b second equal)
  · intro hidden
    have hashed : ∀ a ∈ values, ∀ b ∈ values, Alike a b → a.hash = b.hash := fun a one b two alike =>
      (hash_eq_iff a b).mpr (hidden a one b two alike)
    have weaker : ∀ a ∈ values, ∀ b ∈ values, a.eq b = true → Alike a b → a.hash = b.hash :=
      fun a one b two _ => hashed a one b two
    have decided : ∀ {a b}, a ∈ values → b ∈ values → (a.eq b = true ↔ Alike a b) := eq_iff_alike collection weaker
    constructor
    · exact fun a one b two equal => hashed a one b two ((decided one two).mp equal)
    · exact fun a one => (decided one one).mpr (alike_refl a)
    · exact fun a one b two equal => (decided two one).mpr (alike_symm ((decided one two).mp equal))
    · exact fun a one b two c three left right =>
        (decided one three).mpr (alike_trans ((decided one two).mp left) ((decided two three).mp right))
    · intro table entries member key known entry inside equal
      have apart := keys_apart collection weaker member fun entry inside other known =>
        decided (collection.entries table entries member entry inside).1 known
      have own := (collection.entries table entries member entry inside).1
      exact get_of_alike collection weaker member apart known (fun other third => decided known third) inside
        ((decided known own).mp equal)

section Sample

def text (value : String) : Value := .scalar (.string value)

def one : Value := .scalar (.number (.posInt 1))

def two : Value := .scalar (.number (.posInt 2))

/-- A table that tries both places. -/
def both : Table := fun _ => [0, 1]

/-- The mapping `{a: 1, b: 2}`, and the same entries in the other order. -/
def leftMapping : Value := .mapping both [(text "a", one), (text "b", two)]

def rightMapping : Value := .mapping both [(text "b", two), (text "a", one)]

theorem tabled_pair {table : Table} {first second : Value × Value} (zero : 0 ∈ table first.1.hash)
    (next : 1 ∈ table second.1.hash) (differ : first.1.eq second.1 = false) : Tabled table [first, second] := by
  constructor
  · intro position entry placed
    match position with
    | 0 =>
        obtain rfl := Option.some.inj placed
        exact zero
    | 1 =>
        obtain rfl := Option.some.inj placed
        exact next
    | _ + 2 => cases placed
  · refine List.pairwise_pair.mpr fun _ equal => ?_
    rw [differ] at equal
    exact Bool.false_ne_true equal.1

/-- The mapping with its parts, in one order. -/
def sampleValues : Set Value := {leftMapping, text "a", text "b", one, two}

theorem sampleValues_collection : Collection sampleValues := by
  constructor
  · intro items member
    simp [sampleValues, leftMapping, text, one, two] at member
  · intro table entries member
    simp only [sampleValues, leftMapping, text, one, two, Set.mem_insert_iff, Set.mem_singleton_iff,
      Value.mapping.injEq, reduceCtorEq, or_false] at member
    obtain ⟨-, rfl⟩ := member
    simp [sampleValues, text, one, two]
  · intro table entries member
    simp only [sampleValues, leftMapping, text, one, two, Set.mem_insert_iff, Set.mem_singleton_iff,
      Value.mapping.injEq, reduceCtorEq, or_false] at member
    obtain ⟨rfl, rfl⟩ := member
    exact tabled_pair (by decide) (by decide) rfl

theorem contract_iff_orderHidden_sample : Contract sampleValues := by
  refine (contract_iff_orderHidden sampleValues_collection).mpr ?_
  intro a first b second alike
  rcases first with rfl | rfl | rfl | rfl | rfl <;> rcases second with rfl | rfl | rfl | rfl | rfl <;>
    first | rfl | simp [leftMapping, text, one, two, Alike] at alike

/-- A table that finds the first mapping, and the text behind it, by their writes. -/
def byWrites : Table := fun writes =>
  if writes = leftMapping.hash then [0] else if writes = (text "c").hash then [1] else []

/-- The two mappings are equal and have other writes, so that a lookup with the one misses the entry of the other. -/
theorem equal_mappings_hash_apart : Tabled both [(text "a", one), (text "b", two)] ∧
    Tabled both [(text "b", two), (text "a", one)] ∧ leftMapping.eq rightMapping = true ∧
    leftMapping.hash ≠ rightMapping.hash ∧ Tabled byWrites [(leftMapping, one), (text "c", two)] ∧
    get byWrites [(leftMapping, one), (text "c", two)] leftMapping = some one ∧
    get byWrites [(leftMapping, one), (text "c", two)] rightMapping = none := by
  refine ⟨tabled_pair (by decide) (by decide) rfl, tabled_pair (by decide) (by decide) rfl, by decide, by decide,
    tabled_pair (by decide) (by decide) rfl, rfl, rfl⟩

end Sample

end Spicebench.YamlValue
