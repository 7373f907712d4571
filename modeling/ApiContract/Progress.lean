/-!
# Searches that visit nothing twice

The measure of a search: how many members of a finite list have not been seen. It falls whenever a
new member is seen.
-/

namespace ApiContract

/-- How many members of a list are not among those seen. -/
def unseen {α : Type} [DecidableEq α] (all seen : List α) : Nat :=
  (all.filter fun member => member ∉ seen).length

theorem unseen_cons_lt {α : Type} [DecidableEq α] {all seen : List α} {member : α}
    (hmem : member ∈ all) (hnew : member ∉ seen) :
    unseen all (member :: seen) < unseen all seen := by
  unfold unseen
  have heq : (all.filter fun other => other ∉ member :: seen) =
      (all.filter fun other => other ∉ seen).filter fun other => other ≠ member := by
    rw [List.filter_filter]
    apply List.filter_congr
    intro other _
    by_cases h : other = member <;> simp [h]
  rw [heq]
  exact List.length_filter_lt_length_iff_exists.2 ⟨member, by simp [hmem, hnew], by simp⟩

end ApiContract
