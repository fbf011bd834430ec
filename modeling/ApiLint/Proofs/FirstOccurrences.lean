import Mathlib.Data.List.Nodup
import Mathlib.Data.List.Perm.Basic

/-! Lists that keep each item at its first occurrence only. -/

namespace ApiLint

variable {α : Type} [BEq α]

theorem eraseDups_sublist : ∀ items : List α, items.eraseDups.Sublist items
  | [] => by simp
  | item :: rest => by
      rw [List.eraseDups_cons]
      have hr := eraseDups_sublist (rest.filter fun other => !other == item)
      exact (hr.trans List.filter_sublist).cons_cons item
termination_by items => items.length
decreasing_by exact Nat.lt_succ_of_le (List.length_filter_le _ _)

variable [LawfulBEq α]

/-- Each item is kept once; the rest of the list is the same list without it, and shorter. -/
theorem nodup_eraseDups : ∀ items : List α, items.eraseDups.Nodup
  | [] => by simp
  | item :: rest => by
      rw [List.eraseDups_cons, List.nodup_cons]
      refine ⟨?_, nodup_eraseDups (rest.filter fun other => !other == item)⟩
      simp only [List.mem_eraseDups, List.mem_filter, beq_self_eq_true, Bool.not_true, and_false,
        Bool.false_eq_true, not_false_eq_true]
termination_by items => items.length
decreasing_by exact Nat.lt_succ_of_le (List.length_filter_le _ _)

theorem eraseDups_perm {items others : List α} (h : items.Perm others) :
    items.eraseDups.Perm others.eraseDups := by
  refine (List.perm_ext_iff_of_nodup (nodup_eraseDups _) (nodup_eraseDups _)).mpr fun item => ?_
  rw [List.mem_eraseDups, List.mem_eraseDups, h.mem_iff]

theorem length_eraseDups_eq_iff {items : List α} :
    items.eraseDups.length = items.length ↔ items.Nodup := by
  constructor
  · intro h
    rw [← (eraseDups_sublist items).eq_of_length h]
    exact nodup_eraseDups items
  · intro h
    have hp : items.eraseDups.Perm items :=
      (List.perm_ext_iff_of_nodup (nodup_eraseDups items) h).mpr fun _ => List.mem_eraseDups
    exact hp.length_eq

theorem eraseDups_filter (keep : α → Bool) :
    ∀ items : List α, (items.filter keep).eraseDups = items.eraseDups.filter keep
  | [] => by simp
  | item :: rest => by
      have hr := eraseDups_filter keep (rest.filter fun other => !other == item)
      rw [List.eraseDups_cons]
      by_cases hk : keep item
      · rw [List.filter_cons_of_pos hk, List.filter_cons_of_pos hk, List.eraseDups_cons, ← hr,
          List.filter_comm]
      · -- What is kept is another item anyway.
        have hs : (rest.filter fun other => !other == item).filter keep = rest.filter keep := by
          rw [List.filter_filter]
          refine List.filter_congr fun other _ => ?_
          by_cases ho : other = item
          · simp [ho, hk]
          · simp [ho]
        rw [List.filter_cons_of_neg hk, List.filter_cons_of_neg hk, ← hr, hs]
termination_by items => items.length
decreasing_by exact Nat.lt_succ_of_le (List.length_filter_le _ _)

/-- Of the second list those items are left that the first one does not hold. -/
theorem eraseDups_append_eq_filter (items others : List α) :
    (items ++ others).eraseDups =
      items.eraseDups ++ others.eraseDups.filter (!items.eraseDups.contains ·) := by
  rw [List.eraseDups_append, List.removeAll, eraseDups_filter]
  congr 1
  refine List.filter_congr fun other _ => ?_
  rw [List.elem_eq_contains, Bool.eq_iff_iff]
  simp

end ApiLint
