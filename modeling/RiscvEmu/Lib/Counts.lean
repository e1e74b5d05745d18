/-
Counting in a list without repetitions when a predicate changes at one element.
-/
import Mathlib.Data.List.Nodup
import Mathlib.Data.List.Count

namespace Counts

open List

variable {α : Type}

theorem countP_replace {p p' : α → Bool} {a : α} {l : List α} (hl : l.Nodup) (ha : a ∈ l)
    (h : ∀ x, x ≠ a → p' x = p x) :
    l.countP p' + (if p a then 1 else 0) = l.countP p + (if p' a then 1 else 0) := by
  induction l with
  | nil => cases ha
  | cons b l ih =>
    obtain ⟨hb, hl⟩ := nodup_cons.mp hl
    rw [countP_cons, countP_cons]
    rcases mem_cons.mp ha with rfl | ha
    · have htail : l.countP p' = l.countP p :=
        countP_congr fun x hx => by rw [h x fun hxa => hb (hxa ▸ hx)]
      omega
    · have hne : b ≠ a := fun hba => hb (hba ▸ ha)
      rw [h b hne]
      have := ih hl ha
      omega

theorem count_erase_eq [DecidableEq α] (l : List α) (a t : α) :
    (l.erase a).count t = if t = a then l.count t - 1 else l.count t := by
  by_cases h : t = a
  · subst h
    rw [if_pos rfl, count_erase_self]
  · rw [if_neg h, count_erase_of_ne h]

end Counts
