import Mathlib.Data.List.Infix
import RecordFilter.Text.Split

namespace RecordFilter.Text

theorem cutAt_of_not_mem (c : Char) (s : List Char) (h : c ∉ s) : cutAt c s = (s, none) := by
  induction s with
  | nil => rfl
  | cons x rest ih =>
    obtain ⟨hx, hr⟩ := not_or.mp (mt List.mem_cons.mpr h)
    rw [cutAt, if_neg (Ne.symm hx), ih hr]

theorem cutAt_append (c : Char) (lead rest : List Char) (h : c ∉ lead) :
    cutAt c (lead ++ c :: rest) = (lead, some rest) := by
  induction lead with
  | nil => simp [cutAt]
  | cons x lead ih =>
    obtain ⟨hx, hl⟩ := not_or.mp (mt List.mem_cons.mpr h)
    rw [List.cons_append, cutAt, if_neg (Ne.symm hx), ih hl]

/-- Where nothing is cut off, the text in front is the whole one. -/
theorem fst_cutAt_of_none {c : Char} {s : List Char} (h : (cutAt c s).2 = none) : (cutAt c s).1 = s := by
  induction s with
  | nil => rfl
  | cons x rest ih =>
    rw [cutAt] at h ⊢
    split_ifs at h ⊢
    rw [ih h]

theorem afterLast_append (c : Char) (lead name : List Char) (h : c ∉ name) :
    afterLast c (lead ++ c :: name) = name := by
  induction lead with
  | nil => simp [afterLast, h]
  | cons x lead ih => simp [afterLast, ih]

/-- A text with a `c` has a last one, and no `c` comes after it. -/
theorem exists_append_afterLast (c : Char) (s : List Char) (h : c ∈ s) :
    ∃ lead, s = lead ++ c :: afterLast c s ∧ c ∉ afterLast c s := by
  induction s with
  | nil => simp at h
  | cons x rest ih =>
    by_cases hr : c ∈ rest
    · obtain ⟨lead, hl, hn⟩ := ih hr
      have ha : afterLast c (x :: rest) = afterLast c rest := by simp [afterLast, hr]
      rw [ha]
      exact ⟨x :: lead, by rw [List.cons_append, ← hl], hn⟩
    · have hx : x = c := by simpa [hr, eq_comm] using h
      have ha : afterLast c (x :: rest) = rest := by simp [afterLast, hr, hx]
      rw [ha]
      exact ⟨[], by rw [hx, List.nil_append], hr⟩

theorem splitAt_ne_nil (c : Char) (s : List Char) : splitAt c s ≠ [] := by
  cases s with
  | nil => simp [splitAt]
  | cons x rest =>
    rw [splitAt]
    split
    · simp
    · cases splitAt c rest <;> simp [pushFirst]

theorem pieces_ne_nil (c : Char) (s : String) : pieces c s ≠ [] := by
  rw [pieces, ne_eq, List.map_eq_nil_iff]
  exact splitAt_ne_nil c s.toList

theorem splitAt_of_not_mem (c : Char) (s : List Char) (h : c ∉ s) : splitAt c s = [s] := by
  induction s with
  | nil => rfl
  | cons x rest ih =>
    obtain ⟨hx, hr⟩ := not_or.mp (mt List.mem_cons.mpr h)
    rw [splitAt, if_neg (Ne.symm hx), ih hr]
    rfl

/-- A text without the mark is its only piece. -/
theorem pieces_of_not_mem (c : Char) (s : String) (h : c ∉ s.toList) : pieces c s = [s] := by
  rw [pieces, splitAt_of_not_mem c s.toList h, List.map_singleton, String.ofList_toList]

/-- Cutting a text in two at an occurrence keeps its pieces. -/
theorem splitAt_append (c : Char) (s rest : List Char) :
    splitAt c (s ++ c :: rest) = splitAt c s ++ splitAt c rest := by
  induction s with
  | nil => simp [splitAt]
  | cons x s ih =>
    rw [List.cons_append, splitAt, splitAt, ih]
    split
    · rfl
    · cases hs : splitAt c s with
      | nil => exact absurd hs (splitAt_ne_nil c s)
      | cons piece pieces => rfl

/-- The pieces of joined texts are those of each text, one after the other. -/
theorem splitAt_intercalate (c : Char) {parts : List (List Char)} (h : parts ≠ []) :
    splitAt c ([c].intercalate parts) = parts.flatMap (splitAt c) := by
  induction parts with
  | nil => exact absurd rfl h
  | cons part parts ih =>
    cases parts with
    | nil => simp
    | cons next others =>
      have hjoin : [c].intercalate (part :: next :: others) =
          part ++ c :: [c].intercalate (next :: others) := by
        simp [List.intercalate]
      rw [hjoin, splitAt_append, ih (by simp)]
      rfl

theorem dropLead?_eq_some_iff (lead s rest : List Char) :
    dropLead? lead s = some rest ↔ s = lead ++ rest := by
  induction lead generalizing s with
  | nil => simp [dropLead?]
  | cons l lead ih =>
    cases s with
    | nil => simp [dropLead?]
    | cons x s =>
      rw [dropLead?]
      by_cases h : l = x
      · rw [if_pos h, ih, h, List.cons_append, List.cons.injEq]
        simp
      · rw [if_neg h]
        simp [Ne.symm h]

theorem toList_join (separator : String) (parts : List String) :
    (join separator parts).toList = separator.toList.intercalate (parts.map String.toList) := by
  rw [join, String.toList_ofList]

theorem not_mem_of_mem_splitAt (c : Char) (s : List Char) : ∀ piece ∈ splitAt c s, c ∉ piece := by
  induction s with
  | nil => simp [splitAt]
  | cons x rest ih =>
    rw [splitAt]
    split_ifs with hx
    · exact List.forall_mem_cons.mpr ⟨List.not_mem_nil, ih⟩
    · cases hrest : splitAt c rest with
      | nil => exact absurd hrest (splitAt_ne_nil c rest)
      | cons piece pieces =>
        rw [hrest] at ih
        obtain ⟨hpiece, hpieces⟩ := List.forall_mem_cons.mp ih
        refine List.forall_mem_cons.mpr ⟨fun hmem => ?_, hpieces⟩
        exact (List.mem_cons.mp hmem).elim (fun heq => hx heq.symm) hpiece

theorem intercalate_splitAt (c : Char) (s : List Char) : [c].intercalate (splitAt c s) = s := by
  induction s with
  | nil => rfl
  | cons x rest ih =>
    rw [splitAt]
    split_ifs with hx
    · rw [List.intercalate_cons_of_ne_nil (splitAt_ne_nil c rest), ih, hx]
      rfl
    · cases hrest : splitAt c rest with
      | nil => exact absurd hrest (splitAt_ne_nil c rest)
      | cons piece pieces =>
        rw [hrest] at ih
        cases pieces with
        | nil => simpa [pushFirst] using ih
        | cons next others =>
          rw [List.intercalate_cons_of_ne_nil (by simp)] at ih
          rw [pushFirst, List.intercalate_cons_of_ne_nil (by simp), ← ih]
          rfl

theorem pieces_append (c : Char) (s t : String) :
    pieces c (s ++ String.singleton c ++ t) = pieces c s ++ pieces c t := by
  have htext : (s ++ String.singleton c ++ t).toList = s.toList ++ c :: t.toList := by
    simp
  rw [pieces, htext, splitAt_append, List.map_append]
  rfl

theorem not_mem_of_mem_pieces {c : Char} {s piece : String} (h : piece ∈ pieces c s) : c ∉ piece.toList := by
  obtain ⟨letters, hletters, rfl⟩ := List.mem_map.mp h
  rw [String.toList_ofList]
  exact not_mem_of_mem_splitAt c s.toList letters hletters

section Joining

variable {c : Char} {separator : String}

/-- Cutting a text at a mark and joining its pieces gives the text again. -/
theorem join_pieces (hseparator : separator.toList = [c]) (s : String) : join separator (pieces c s) = s := by
  have hletters : (pieces c s).map String.toList = splitAt c s.toList := by
    rw [pieces, List.map_map]
    exact List.map_id'' (fun _ => String.toList_ofList) _
  rw [join, hseparator, hletters, intercalate_splitAt, String.ofList_toList]

theorem pieces_join_of_toList {parts : List String} (hseparator : separator.toList = [c]) (h : parts ≠ []) :
    pieces c (join separator parts) = parts.flatMap (pieces c) := by
  have hparts : parts.map String.toList ≠ [] := by simpa using h
  rw [pieces, toList_join, hseparator, splitAt_intercalate c hparts, List.flatMap_map, List.map_flatMap]
  rfl

theorem pieces_join {parts : List String} (h : parts ≠ []) :
    pieces ',' (join "," parts) = parts.flatMap (pieces ',') :=
  pieces_join_of_toList (by rfl) h

end Joining

end RecordFilter.Text
