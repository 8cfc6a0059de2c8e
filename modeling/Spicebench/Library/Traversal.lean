import Mathlib.Data.List.Forall2

namespace Spicebench.Library

variable {Error First Second Third : Type}

/-- What a sequence of two steps has gone through. -/
theorem bind_eq_ok_iff {first : Except Error First} {next : First → Except Error Second} {result : Second} :
    (first >>= next) = .ok result ↔ ∃ value, first = .ok value ∧ next value = .ok result := by
  cases first with
  | error message => simp [bind, Except.bind]
  | ok value => simp [bind, Except.bind]

theorem exists_error_iff {result : Except Error First} :
    (∃ message, result = .error message) ↔ ¬∃ value, result = .ok value := by
  cases result with
  | error message => simp
  | ok value => simp

/-- A traversal goes through exactly when each of its steps does. -/
theorem mapM_eq_ok_iff {step : First → Except Error Second} {items : List First} {results : List Second} :
    items.mapM step = .ok results ↔ List.Forall₂ (fun item result => step item = .ok result) items results := by
  induction items generalizing results with
  | nil =>
      rw [List.mapM_nil, List.forall₂_nil_left_iff]
      exact ⟨fun same => (Except.ok.inj same).symm, fun same => congrArg Except.ok same.symm⟩
  | cons item rest ih =>
      rw [List.mapM_cons, bind_eq_ok_iff]
      constructor
      · rintro ⟨result, stepped, traversed⟩
        obtain ⟨others, following, same⟩ := bind_eq_ok_iff.mp traversed
        obtain rfl : result :: others = results := Except.ok.inj same
        exact .cons stepped (ih.mp following)
      · intro related
        obtain ⟨result, others, stepped, following, rfl⟩ := List.forall₂_cons_left_iff.mp related
        exact ⟨result, stepped, bind_eq_ok_iff.mpr ⟨others, ih.mpr following, rfl⟩⟩

/-- A traversal that may find nothing goes through exactly when each of its steps does. -/
theorem mapM_eq_some_iff {step : First → Option Second} {items : List First} {results : List Second} :
    items.mapM step = some results ↔ List.Forall₂ (fun item result => step item = some result) items results := by
  induction items generalizing results with
  | nil =>
      rw [List.mapM_nil, List.forall₂_nil_left_iff]
      exact ⟨fun same => (Option.some.inj same).symm, fun same => congrArg some same.symm⟩
  | cons item rest ih =>
      rw [List.mapM_cons, List.forall₂_cons_left_iff]
      constructor
      · intro mapped
        obtain ⟨result, stepped, mapped⟩ := Option.bind_eq_some_iff.mp mapped
        obtain ⟨others, following, built⟩ := Option.bind_eq_some_iff.mp mapped
        exact ⟨result, others, stepped, ih.mp following, (Option.some.inj built).symm⟩
      · rintro ⟨result, others, stepped, following, rfl⟩
        rw [stepped, ih.mpr following]
        rfl

theorem exists_mapM_eq_some {step : First → Option Second} {items : List First}
    (possible : ∀ item ∈ items, ∃ result, step item = some result) : ∃ results, items.mapM step = some results := by
  induction items with
  | nil => exact ⟨[], rfl⟩
  | cons item rest ih =>
      obtain ⟨result, stepped⟩ := possible item List.mem_cons_self
      obtain ⟨others, following⟩ := ih fun other member => possible other (List.mem_cons_of_mem _ member)
      refine ⟨result :: others, ?_⟩
      rw [mapM_eq_some_iff] at following ⊢
      exact .cons stepped following

theorem mapM_congr {step other : First → Except Error Second} {items : List First}
    (same : ∀ item ∈ items, step item = other item) : items.mapM step = items.mapM other := by
  induction items with
  | nil => rfl
  | cons item rest ih =>
      rw [List.mapM_cons, List.mapM_cons, same item List.mem_cons_self,
        ih fun next member => same next (List.mem_cons_of_mem _ member)]

/-- What each step preserves, the traversal preserves. -/
theorem map_eq_of_mapM {step : First → Except Error Second} {items : List First} {results : List Second}
    (traversed : items.mapM step = .ok results) (before : First → Third) (after : Second → Third)
    (kept : ∀ item ∈ items, ∀ result, step item = .ok result → after result = before item) :
    results.map after = items.map before := by
  rw [mapM_eq_ok_iff] at traversed
  induction traversed with
  | nil => rfl
  | cons stepped _ ih =>
      rw [List.map_cons, List.map_cons, kept _ List.mem_cons_self _ stepped,
        ih fun item member => kept item (List.mem_cons_of_mem _ member)]

/-- What each step preserves whatever the number of its item, the numbered traversal preserves. -/
theorem map_eq_of_mapM_zipIdx {step : First × Nat → Except Error Second} {items : List First} {start : Nat}
    {results : List Second} (traversed : (items.zipIdx start).mapM step = .ok results) (before : First → Third)
    (after : Second → Third)
    (kept : ∀ item number result, step (item, number) = .ok result → after result = before item) :
    results.map after = items.map before := by
  have same := map_eq_of_mapM traversed (before ∘ Prod.fst) after fun entry _ => kept entry.1 entry.2
  rwa [← List.map_map, List.zipIdx_map_fst] at same

/-- A traversal goes through where each of its steps does. -/
theorem exists_mapM {step : First → Except Error Second} {items : List First}
    (possible : ∀ item ∈ items, ∃ result, step item = .ok result) : ∃ results, items.mapM step = .ok results := by
  induction items with
  | nil => exact ⟨[], rfl⟩
  | cons item rest ih =>
      obtain ⟨result, stepped⟩ := possible item List.mem_cons_self
      obtain ⟨others, following⟩ := ih fun other member => possible other (List.mem_cons_of_mem _ member)
      refine ⟨result :: others, ?_⟩
      rw [mapM_eq_ok_iff] at following ⊢
      exact .cons stepped following

/-- Each step of a traversal that has gone through has gone through. -/
theorem exists_of_mapM {step : First → Except Error Second} {items : List First} {results : List Second}
    (traversed : items.mapM step = .ok results) {item : First} (member : item ∈ items) :
    ∃ result ∈ results, step item = .ok result := by
  rw [mapM_eq_ok_iff] at traversed
  induction traversed with
  | nil => simp at member
  | cons stepped _ ih =>
      rcases List.mem_cons.mp member with rfl | later
      · exact ⟨_, List.mem_cons_self, stepped⟩
      · obtain ⟨result, inside, found⟩ := ih later
        exact ⟨result, List.mem_cons_of_mem _ inside, found⟩

/-- Folds whose steps agree on their items agree. -/
theorem foldlM_congr {step other : First → Second → Except Error First} {items : List Second}
    (same : ∀ item ∈ items, ∀ state, step state item = other state item) (state : First) :
    items.foldlM step state = items.foldlM other state := by
  induction items generalizing state with
  | nil => rfl
  | cons item rest ih =>
      rw [List.foldlM_cons, List.foldlM_cons, same item List.mem_cons_self]
      apply congrArg
      funext next
      exact ih (fun later member => same later (List.mem_cons_of_mem _ member)) next

/-- A fold that goes through has taken a step at each of its items. -/
theorem exists_of_foldlM {step : First → Second → Except Error First} {items : List Second} {state result : First}
    (folded : items.foldlM step state = .ok result) {item : Second} (member : item ∈ items) :
    ∃ before after, step before item = .ok after := by
  induction items generalizing state with
  | nil => cases member
  | cons first rest ih =>
      rw [List.foldlM_cons, bind_eq_ok_iff] at folded
      obtain ⟨next, stepped, folded⟩ := folded
      cases member with
      | head => exact ⟨state, next, stepped⟩
      | tail _ member => exact ih folded member

end Spicebench.Library
