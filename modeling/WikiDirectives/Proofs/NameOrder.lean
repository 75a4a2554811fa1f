import Mathlib.Data.List.Nodup
import WikiDirectives.Text.Basic

/-! Sorting by names. The order in which things come does not matter to the sorted list. -/
namespace WikiDirectives.Text
variable {α : Type} {s t u : Text} {names names' : List Text}

lemma eq_of_not_before (hst : before s t = false) (hts : before t s = false) : s = t := by
  rcases before_or_eq_or_before s t with h | h | h
  · exact absurd h (by simp [hst])
  · exact h
  · exact absurd h (by simp [hts])

lemma not_before_trans (hts : before t s = false) (hut : before u t = false) : before u s = false := by
  rw [Bool.eq_false_iff]
  intro hus
  rcases before_or_eq_or_before s t with hst | rfl | hst
  · exact absurd (before_trans hus hst) (by simp [hut])
  · exact absurd hus (by simp [hut])
  · exact absurd hst (by simp [hts])

lemma not_before_total (s t : Text) : before t s = false ∨ before s t = false := by
  cases hts : before t s with
  | false => exact .inl rfl
  | true =>
    right
    rw [Bool.eq_false_iff]
    intro hst
    exact absurd (before_trans hst hts) (by simp [before_irrefl])

/-- What is sorted by names is in their order. -/
theorem pairwise_mergeSort (name : α → Text) (xs : List α) :
    (xs.mergeSort fun a b => !before (name b) (name a)).Pairwise
      fun a b => before (name b) (name a) = false := by
  have hsorted := @List.pairwise_mergeSort α (fun a b => !before (name b) (name a))
    (fun a b c hab hbc => by simpa using not_before_trans (by simpa using hab) (by simpa using hbc))
    (fun a b => by simpa using not_before_total (name a) (name b)) xs
  simpa using hsorted

/-- If no name occurs twice, the names ascend strictly. -/
theorem ascending_mergeSort {name : α → Text} {xs : List α} (hnodup : (xs.map name).Nodup) :
    (xs.mergeSort fun a b => !before (name b) (name a)).Pairwise
      fun a b => before (name a) (name b) = true := by
  have hnames : (xs.mergeSort fun a b => !before (name b) (name a)).Pairwise
      fun a b => name a ≠ name b :=
    List.pairwise_map.mp (((List.mergeSort_perm xs _).map name).nodup_iff.mpr hnodup)
  refine (pairwise_mergeSort name xs).imp₂ (fun a b hba hne => ?_) hnames
  rcases before_or_eq_or_before (name a) (name b) with h | h | h
  · exact h
  · exact absurd h hne
  · exact absurd h (by simp [hba])

theorem mergeSort_eq_of_perm (h : names.Perm names') :
    names.mergeSort (fun a b => !before b a) = names'.mergeSort fun a b => !before b a := by
  refine List.Perm.eq_of_pairwise (fun s t _ _ hts hst => eq_of_not_before hst hts)
    (pairwise_mergeSort id names) (pairwise_mergeSort id names') ?_
  exact (List.mergeSort_perm names _).trans (h.trans (List.mergeSort_perm names' _).symm)

end WikiDirectives.Text
