import Mathlib.Data.List.Nodup
import Mathlib.Data.List.Perm.Basic
import Mathlib.Logic.Function.Basic

namespace Spicebench.Library

variable {Key Entry Cell : Type} [DecidableEq Key]

/-- The entries of one key, in the order of the trace. -/
def entriesOf (keyOf : Entry → Key) (key : Key) (trace : List Entry) : List Entry :=
  trace.filter fun entry => keyOf entry = key

@[simp] theorem entriesOf_append (keyOf : Entry → Key) (key : Key) (first second : List Entry) :
    entriesOf keyOf key (first ++ second) = entriesOf keyOf key first ++ entriesOf keyOf key second :=
  List.filter_append ..

/-- Two traces agree when they list the same entries of every key in the same order, so that only entries of
different keys change places. -/
def SameByKey (keyOf : Entry → Key) (first second : List Entry) : Prop :=
  ∀ key, entriesOf keyOf key first = entriesOf keyOf key second

namespace SameByKey

variable {keyOf : Entry → Key} {first second third other : List Entry}

theorem refl (trace : List Entry) : SameByKey keyOf trace trace := fun _ => rfl

theorem trans (left : SameByKey keyOf first second) (right : SameByKey keyOf second third) :
    SameByKey keyOf first third := fun key => (left key).trans (right key)

theorem symm (same : SameByKey keyOf first second) : SameByKey keyOf second first := fun key => (same key).symm

theorem append (left : SameByKey keyOf first second) (right : SameByKey keyOf third other) :
    SameByKey keyOf (first ++ third) (second ++ other) := by
  intro key
  rw [entriesOf_append, entriesOf_append, left key, right key]

/-- Where each key occurs once, the order does not matter. -/
theorem of_perm (distinct : (first.map keyOf).Nodup) (perm : first.Perm second) : SameByKey keyOf first second := by
  intro key
  have filtered : (entriesOf keyOf key first).Perm (entriesOf keyOf key second) := perm.filter _
  have short : (entriesOf keyOf key first).length ≤ 1 := by
    by_contra long
    obtain ⟨one, two, rest, shape⟩ : ∃ one two rest, entriesOf keyOf key first = one :: two :: rest := by
      match entriesOf keyOf key first, long with
      | [], long | [_], long => simp at long
      | one :: two :: rest, _ => exact ⟨one, two, rest, rfl⟩
    have keys : ∀ entry ∈ entriesOf keyOf key first, keyOf entry = key := by
      intro entry member
      simpa using (List.mem_filter.mp member).2
    have nodup := distinct.sublist (List.filter_sublist (p := fun entry => keyOf entry = key).map keyOf)
    change ((entriesOf keyOf key first).map keyOf).Nodup at nodup
    rw [shape] at nodup keys
    simp [keys one (by simp), keys two (by simp)] at nodup
  match found : entriesOf keyOf key first, short with
  | [], _ => rw [found] at filtered; exact filtered.symm.eq_nil.symm
  | [entry], _ => rw [found] at filtered; exact (List.singleton_perm.mp filtered).symm ▸ rfl

end SameByKey

/-- Each entry changes the cell of its own key. -/
def applyEntry (keyOf : Entry → Key) (effect : Entry → Cell → Cell) (content : Key → Cell)
    (entry : Entry) : Key → Cell :=
  Function.update content (keyOf entry) (effect entry (content (keyOf entry)))

def replayTrace (keyOf : Entry → Key) (effect : Entry → Cell → Cell) (content : Key → Cell) (trace : List Entry) :
    Key → Cell :=
  trace.foldl (applyEntry keyOf effect) content

theorem replayTrace_append (keyOf : Entry → Key) (effect : Entry → Cell → Cell) (content : Key → Cell)
    (first second : List Entry) : replayTrace keyOf effect content (first ++ second) =
      replayTrace keyOf effect (replayTrace keyOf effect content first) second :=
  List.foldl_append

/-- A cell goes through the entries of its key. -/
theorem replayTrace_apply (keyOf : Entry → Key) (effect : Entry → Cell → Cell) (content : Key → Cell)
    (trace : List Entry) (key : Key) : replayTrace keyOf effect content trace key =
      (entriesOf keyOf key trace).foldl (fun cell entry => effect entry cell) (content key) := by
  induction trace generalizing content with
  | nil => rfl
  | cons entry rest ih =>
      have step : replayTrace keyOf effect content (entry :: rest) key =
          replayTrace keyOf effect (applyEntry keyOf effect content entry) rest key := rfl
      rw [step, ih]
      by_cases own : keyOf entry = key
      · simp [entriesOf, own, applyEntry]
      · simp [entriesOf, own, applyEntry, Function.update_of_ne (Ne.symm own)]

/-- Agreeing traces leave the same content. -/
theorem SameByKey.replay {keyOf : Entry → Key} {first second : List Entry} (same : SameByKey keyOf first second)
    (effect : Entry → Cell → Cell) (content : Key → Cell) :
    replayTrace keyOf effect content first = replayTrace keyOf effect content second := by
  funext key
  rw [replayTrace_apply, replayTrace_apply, same key]

end Spicebench.Library
