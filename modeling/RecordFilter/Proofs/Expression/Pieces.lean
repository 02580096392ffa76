import Mathlib.Data.List.Infix
import RecordFilter.Expression.Grammar

namespace RecordFilter.Expression

open Text

def orMark : List Char := ['_', 'O', 'R', '_']

/-- No mark starts in `piece ++ mark ++ rest` before the one after `piece`. -/
def CutsFirst (mark piece rest : List Char) : Prop :=
  ∀ lead, lead ++ mark <+: piece ++ mark ++ rest → piece.length ≤ lead.length

inductive LeftmostSplit (mark : List Char) : List Char → List (List Char) → Prop
  | whole (s : List Char) (h : ¬ mark <:+: s) : LeftmostSplit mark s [s]
  | cut (piece rest : List Char) (pieces : List (List Char)) (h : CutsFirst mark piece rest)
      (hs : LeftmostSplit mark rest pieces) :
      LeftmostSplit mark (piece ++ mark ++ rest) (piece :: pieces)

namespace LeftmostSplit

variable {mark s : List Char} {ps qs : List (List Char)}

theorem ne_nil (h : LeftmostSplit mark s ps) : ps ≠ [] := by
  cases h <;> simp

theorem intercalate_eq (h : LeftmostSplit mark s ps) : mark.intercalate ps = s := by
  induction h with
  | whole s _ => exact List.intercalate_singleton
  | cut piece rest pieces _ hs ih =>
    rw [List.intercalate_cons_of_ne_nil hs.ne_nil, ih]

/-- A text without the mark is one piece, and no other text is. -/
theorem singleton_iff (h : LeftmostSplit mark s ps) : ps = [s] ↔ ¬ mark <:+: s := by
  cases h with
  | whole s hm => simp [hm]
  | cut piece rest pieces _ hs =>
    have hne : pieces ≠ [] := hs.ne_nil
    simp [hne]

theorem one_lt_length (h : LeftmostSplit mark s ps) (hm : mark <:+: s) : 1 < ps.length := by
  cases h with
  | whole s hn => exact absurd hm hn
  | cut piece rest pieces _ hs =>
    have hp : 0 < pieces.length := List.length_pos_iff.mpr hs.ne_nil
    rw [List.length_cons]
    omega

private theorem cut_unique {p q r t : List Char} (hp : CutsFirst mark p r) (hq : CutsFirst mark q t)
    (h : p ++ mark ++ r = q ++ mark ++ t) : p = q ∧ r = t := by
  have hle : p.length ≤ q.length := hp q (h ▸ List.prefix_append (q ++ mark) t)
  have hge : q.length ≤ p.length := hq p (h ▸ List.prefix_append (p ++ mark) r)
  rw [List.append_assoc, List.append_assoc] at h
  obtain ⟨hpq, ht⟩ := List.append_inj h (le_antisymm hle hge)
  exact ⟨hpq, List.append_cancel_left ht⟩

theorem unique (hp : LeftmostSplit mark s ps) (hq : LeftmostSplit mark s qs) : ps = qs := by
  induction hp generalizing qs with
  | whole s hm => exact ((hq.singleton_iff).mpr hm).symm
  | cut piece rest pieces hf _ ih =>
    generalize ht : piece ++ mark ++ rest = t at hq
    cases hq with
    | whole _ hm => exact absurd (ht ▸ List.infix_append piece mark rest) hm
    | cut piece' rest' pieces' hf' hs' =>
      obtain ⟨rfl, rfl⟩ := cut_unique hf hf' ht
      rw [ih hs']

theorem cut_iff {piece rest : List Char} :
    LeftmostSplit mark (piece ++ mark ++ rest) (piece :: ps) ↔
      CutsFirst mark piece rest ∧ LeftmostSplit mark rest ps := by
  constructor
  · intro h
    generalize hs : piece ++ mark ++ rest = s at h
    cases h with
    | whole _ hm => exact absurd (hs ▸ List.infix_append piece mark rest) hm
    | cut _ rest' _ hf h =>
      have hr : rest = rest' := List.append_cancel_left hs
      subst hr
      exact ⟨hf, h⟩
  · intro hh
    obtain ⟨hf, h⟩ := hh
    exact .cut piece rest ps hf h

theorem pushFirst (c : Char) (h : LeftmostSplit mark s ps) (hc : ¬ mark <+: c :: s) :
    LeftmostSplit mark (c :: s) (pushFirst c ps) := by
  cases h with
  | whole s hm => exact .whole (c :: s) (by simp [List.infix_cons_iff, hc, hm])
  | cut piece rest pieces hf hs =>
    refine .cut (c :: piece) rest pieces ?_ hs
    intro lead hl
    cases lead with
    | nil => exact absurd hl hc
    | cons d lead =>
      obtain ⟨_, hl'⟩ := List.cons_prefix_cons.mp hl
      simpa using hf lead hl'

end LeftmostSplit

theorem splitOr_leftmost (s : List Char) : LeftmostSplit orMark s (splitOr s) := by
  fun_induction splitOr s with
  | case1 rest ih => exact .cut [] rest _ (fun lead _ => Nat.zero_le lead.length) ih
  | case2 => exact .whole [] (by decide)
  | case3 c rest hne ih =>
    refine ih.pushFirst c ?_
    intro hh
    obtain ⟨tail, ht⟩ := hh
    obtain ⟨hc, hr⟩ := List.cons.inj ht
    exact hne tail hc.symm hr.symm

theorem splitOr_eq_iff (s : List Char) (ps : List (List Char)) :
    splitOr s = ps ↔ LeftmostSplit orMark s ps :=
  ⟨fun h => h ▸ splitOr_leftmost s, fun h => (splitOr_leftmost s).unique h⟩

-- Of two marks that share a `_` only the first one cuts.
example : splitOr "a_OR_OR_b".toList = ["a".toList, "OR_b".toList] := by decide

/-- A mark can start inside a piece only by reaching into it whole, or by sharing its last `_` with the
one after the piece: the piece then ends in the first three characters of a mark. -/
theorem cutsFirst_orMark_iff (piece rest : List Char) :
    CutsFirst orMark piece rest ↔ ¬ orMark <:+: piece ∧ ¬ ['_', 'O', 'R'] <:+ piece := by
  constructor
  · intro h
    constructor
    · intro hh
      obtain ⟨lead, tail, rfl⟩ := hh
      have hl := h lead (by simp [List.append_assoc])
      simp only [List.length_append, orMark, List.length_cons] at hl
      omega
    · intro hh
      obtain ⟨lead, rfl⟩ := hh
      have hl := h lead (by simp [orMark])
      simp only [List.length_append, List.length_cons] at hl
      omega
  · intro hh lead hprefix
    obtain ⟨hin, hend⟩ := hh
    obtain ⟨tail, ht⟩ := hprefix
    by_contra hl
    simp only [List.append_assoc] at ht
    obtain ⟨d, hd, hr⟩ := (List.append_eq_append_iff.mp ht).resolve_right (by
      intro hh
      obtain ⟨d, rfl, _⟩ := hh
      simp at hl)
    subst hd
    match d with
    | [] => simp at hl
    | [a] => simp [orMark] at hr
    | [a, b] => simp [orMark] at hr
    | [a, b, c] =>
      obtain ⟨rfl, rfl, rfl, _⟩ : '_' = a ∧ 'O' = b ∧ 'R' = c ∧ _ := by simpa [orMark] using hr
      exact hend (List.suffix_append lead _)
    | a :: b :: c :: e :: d =>
      obtain ⟨rfl, rfl, rfl, rfl, _⟩ : '_' = a ∧ 'O' = b ∧ 'R' = c ∧ '_' = e ∧ _ := by
        simpa [orMark] using hr
      exact hin ⟨lead, d, by simp [orMark]⟩

/-- Splitting undoes joining exactly when no mark shows up where none was put. -/
theorem splitOr_intercalate_iff (ps : List (List Char)) (hne : ps ≠ []) :
    splitOr (orMark.intercalate ps) = ps ↔
      (∀ p ∈ ps, ¬ orMark <:+: p) ∧ ∀ p ∈ ps.dropLast, ¬ ['_', 'O', 'R'] <:+ p := by
  induction ps with
  | nil => exact absurd rfl hne
  | cons p ps ih =>
    cases ps with
    | nil =>
      rw [List.intercalate_singleton, (splitOr_leftmost p).singleton_iff]
      simp
    | cons q qs =>
      rw [List.intercalate_cons_cons, splitOr_eq_iff, LeftmostSplit.cut_iff, cutsFirst_orMark_iff,
        ← splitOr_eq_iff, ih (by simp)]
      simp only [List.dropLast_cons_cons, List.forall_mem_cons]
      tauto

end RecordFilter.Expression
