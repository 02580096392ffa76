import Mathlib
import RecordFilter.Text.Split

namespace RecordFilter.Text

variable {part s : List Char} {c : Char}

/-- A text occurs in another one when it is an infix of it. -/
theorem occursIn_iff (part s : List Char) : occursIn part s = true ↔ part <:+: s := by
  induction s with
  | nil => rw [occursIn, List.isEmpty_iff, List.infix_nil]
  | cons x rest ih => rw [occursIn, Bool.or_eq_true, List.isPrefixOf_iff_prefix, ih, List.infix_cons_iff]

/-- A text that starts and ends with a part is that part, if some character of the part occurs once in it. -/
theorem eq_of_both_ends (hstart : part <+: s) (hend : part <:+ s) (hc : c ∈ part) (hone : s.count c ≤ 1) :
    s = part := by
  obtain ⟨rest, rfl⟩ := hstart
  obtain ⟨front, hs⟩ := hend
  obtain ⟨u, v, rfl⟩ := List.append_of_mem hc
  simp only [List.count_append, List.count_cons_self] at hone
  have hu : c ∉ u := List.count_eq_zero.mp (by omega)
  have hv : c ∉ v ++ rest := List.count_eq_zero.mp (by rw [List.count_append]; omega)
  have hplace : u ++ c :: (v ++ rest) = front ++ u ++ c :: v := by simpa using hs.symm
  obtain ⟨-, -, hrest⟩ := (List.append_cons_inj_of_notMem hu hv).mp hplace
  rw [List.append_right_eq_self.mp hrest, List.append_nil]

end RecordFilter.Text
