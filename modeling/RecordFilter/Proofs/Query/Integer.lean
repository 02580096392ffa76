import Mathlib
import RecordFilter.Proofs.Query.Literal

namespace RecordFilter.Coercion

open Numeral (AsciiDigits Denotes asciiDigits_toDigits exists_denotes_of_signs maxDigits signs trim_of_denotes)
open Text

variable {type : PropertyType} {low high n : Int} {raw : String} {s : List Char} {ds : List Nat}

section Readings

variable {v : Value}

theorem toInteger_eq_ok_iff :
    toInteger type low high raw = .ok v ↔
      ∃ ds n, Denotes AsciiDigits (trim raw.toList) ds n ∧ ds.length ≤ maxDigits ∧ low ≤ n ∧ n ≤ high ∧
        v = .int n := by
  constructor
  · intro h
    have hreading := reading_toInteger type low high raw
    rw [h] at hreading
    cases hreading with
    | within hd hlen hlow hhigh => exact ⟨_, _, hd, hlen, hlow, hhigh, rfl⟩
  · intro hh
    obtain ⟨ds, n, hd, hlen, hlow, hhigh, rfl⟩ := hh
    rw [toInteger_of_denotes hd, if_neg (Nat.not_lt.mpr hlen), if_pos ⟨hlow, hhigh⟩]

theorem toInteger_eq_refused_iff :
    toInteger type low high raw = .error (refused type raw) ↔
      (∃ ds n, Denotes AsciiDigits (trim raw.toList) ds n ∧ ds.length ≤ maxDigits ∧
        ¬ (low ≤ n ∧ n ≤ high)) ∨ ¬ ∃ ds n, Denotes AsciiDigits (trim raw.toList) ds n := by
  constructor
  · intro h
    have hreading := reading_toInteger type low high raw
    rw [h] at hreading
    cases hreading with
    | outside hd hlen hrange => exact .inl ⟨_, _, hd, hlen, hrange⟩
    | other hnot => exact .inr hnot
  · intro hh
    rcases hh with ⟨ds, n, hd, hlen, hrange⟩ | hnot
    · rw [toInteger_of_denotes hd, if_neg (Nat.not_lt.mpr hlen), if_neg hrange]
    · exact toInteger_of_not_denotes hnot

theorem toInteger_eq_unreadable_iff :
    toInteger type low high raw = .error (.unreadable "") ↔
      ∃ ds n, Denotes AsciiDigits (trim raw.toList) ds n ∧ maxDigits < ds.length := by
  constructor
  · intro h
    have hreading := reading_toInteger type low high raw
    rw [h] at hreading
    cases hreading with
    | long hd hlong => exact ⟨_, _, hd, hlong⟩
  · intro hh
    obtain ⟨ds, n, hd, hlong⟩ := hh
    rw [toInteger_of_denotes hd, if_pos hlong]

end Readings

section Spellings

/-- The text that shows an integer denotes it, with as many digits as its size needs. -/
theorem denotes_render (n : Int) :
    Denotes AsciiDigits (Value.int n).render.toList ((Nat.toDigits 10 n.natAbs).map digitOf) n := by
  have hdigits := asciiDigits_toDigits n.natAbs
  have hvalue := Numeral.value_toDigits n.natAbs
  have hrender : (Value.int n).render = n.repr := by simp [Value.render, Value.source]
  rw [hrender, Int.repr_eq_if]
  split_ifs with hsign
  · have hn : (n.natAbs : Int) = n := by omega
    have hnat : n.toNat = n.natAbs := by omega
    have h := Denotes.unsigned hdigits
    rw [hvalue, hn] at h
    rw [Nat.toList_repr, hnat]
    exact h
  · have hn : -(n.natAbs : Int) = n := by omega
    have hnat : (-n).toNat = n.natAbs := by omega
    have h := Denotes.minus hdigits
    rw [hvalue, hn] at h
    rw [String.toList_append, Nat.toList_repr, hnat]
    exact h

/-- Blanks around a numeral, zeros behind its sign and a `+` for none leave the value as it is. -/
theorem toInteger_respelled {sign mark lead tail digits : String} {zeros : Nat} {v : Value}
    (hsign : (sign, mark) ∈ signs) (hblank : ∀ c ∈ (lead ++ tail).toList, isBlank c = true)
    (hdigits : AsciiDigits digits.toList ds) (hlength : zeros + ds.length ≤ maxDigits) :
    toInteger type low high (lead ++ (sign ++ String.ofList (List.replicate zeros '0') ++ digits) ++ tail) =
        .ok v ↔
      toInteger type low high (mark ++ digits) = .ok v := by
  obtain ⟨n, hlong, hshort⟩ := exists_denotes_of_signs hsign zeros hdigits
  have hlongText : (lead ++ (sign ++ String.ofList (List.replicate zeros '0') ++ digits) ++ tail).toList =
      lead.toList ++ (sign.toList ++ List.replicate zeros '0' ++ digits.toList) ++ tail.toList := by
    simp only [String.toList_append, String.toList_ofList]
  have hshortText : (mark ++ digits).toList = [] ++ (mark.toList ++ digits.toList) ++ [] := by
    simp only [String.toList_append, List.nil_append, List.append_nil]
  rw [String.toList_append] at hblank
  rw [← trim_of_denotes lead.toList tail.toList hlong hblank, ← hlongText] at hlong
  rw [← trim_of_denotes [] [] hshort (by simp), ← hshortText] at hshort
  have hlong' : ¬ maxDigits < (List.replicate zeros 0 ++ ds).length := by
    rw [List.length_append, List.length_replicate]
    exact Nat.not_lt.mpr hlength
  have hshort' : ¬ maxDigits < ds.length := Nat.not_lt.mpr ((Nat.le_add_left _ _).trans hlength)
  rw [toInteger_of_denotes hlong, toInteger_of_denotes hshort, if_neg hlong', if_neg hshort']
  split_ifs with hrange
  · rfl
  · constructor
    · intro h
      cases h
    · intro h
      cases h

end Spellings

/-- The integer types, with the least and the greatest integer of each. -/
def bounds : List (PropertyType × Int × Int) :=
  [(.integer, -2 ^ 31, 2 ^ 31 - 1), (.long, -2 ^ 63, 2 ^ 63 - 1)]

theorem coerce_of_bounds (h : (type, low, high) ∈ bounds) : coerce type raw = toInteger type low high raw := by
  simp only [bounds, List.mem_cons, Prod.mk.injEq, List.not_mem_nil, or_false] at h
  rcases h with ⟨rfl, rfl, rfl⟩ | ⟨rfl, rfl, rfl⟩
  · rfl
  · rfl

/-- No integer within the bounds is shown with more digits than are read. -/
theorem length_render_le (h : (type, low, high) ∈ bounds) (hlow : low ≤ n) (hhigh : n ≤ high) :
    ((Nat.toDigits 10 n.natAbs).map digitOf).length ≤ maxDigits := by
  have hsmall : n.natAbs < 10 ^ 20 := by
    simp only [bounds, List.mem_cons, Prod.mk.injEq, List.not_mem_nil, or_false] at h
    rcases h with ⟨-, rfl, rfl⟩ | ⟨-, rfl, rfl⟩
    · omega
    · omega
  rw [List.length_map]
  exact ((Nat.length_toDigits_le_iff (by decide) (by decide)).mpr hsmall).trans (by decide)

/-- A text of an integer type is read as an integer exactly when it denotes one within the bounds, with at most
4300 digits and nothing but blanks around it. It is refused when the integer is out of bounds or the text
denotes none, and breaks off when it has more digits. So the text that shows an integer within the bounds is
read as it, blanks, zeros and a `+` in front change nothing, and 64 bits read what 32 bits read. -/
theorem integers_read_exactly (type : PropertyType) (low high : Int) (h : (type, low, high) ∈ bounds) :
    (∀ raw v, coerce type raw = .ok v ↔
      ∃ ds n, Denotes AsciiDigits (trim raw.toList) ds n ∧ ds.length ≤ 4300 ∧ low ≤ n ∧ n ≤ high ∧
        v = .int n) ∧
    (∀ raw, coerce type raw = .error (.filter (.typeCoercion type.name raw none)) ↔
      (∃ ds n, Denotes AsciiDigits (trim raw.toList) ds n ∧ ds.length ≤ 4300 ∧ ¬ (low ≤ n ∧ n ≤ high)) ∨
        ¬ ∃ ds n, Denotes AsciiDigits (trim raw.toList) ds n) ∧
    (∀ raw, coerce type raw = .error (.unreadable "") ↔
      ∃ ds n, Denotes AsciiDigits (trim raw.toList) ds n ∧ 4300 < ds.length) ∧
    (∀ n, low ≤ n → n ≤ high → coerce type (Value.int n).render = .ok (.int n)) ∧
    (∀ sign mark, (sign, mark) ∈ signs → ∀ lead tail digits zeros ds v,
      (∀ c ∈ (lead ++ tail).toList, isBlank c = true) → AsciiDigits digits.toList ds →
      zeros + ds.length ≤ 4300 →
      (coerce type (lead ++ (sign ++ String.ofList (List.replicate zeros '0') ++ digits) ++ tail) = .ok v ↔
        coerce type (mark ++ digits) = .ok v)) ∧
    ∀ raw v, coerce .integer raw = .ok v → coerce .long raw = .ok v := by
  have hread : ∀ raw, coerce type raw = toInteger type low high raw := fun raw => coerce_of_bounds h
  simp only [hread]
  refine ⟨fun raw v => toInteger_eq_ok_iff, fun raw => toInteger_eq_refused_iff,
    fun raw => toInteger_eq_unreadable_iff, fun n hlow hhigh => ?_, ?_, fun raw v hraw => ?_⟩
  · have htrim : trim (Value.int n).render.toList = (Value.int n).render.toList := by
      simpa using trim_of_denotes [] [] (denotes_render n) (by simp)
    have hd := denotes_render n
    rw [← htrim] at hd
    exact toInteger_eq_ok_iff.mpr ⟨_, n, hd, length_render_le h hlow hhigh, hlow, hhigh, rfl⟩
  · intro sign mark hsign lead tail digits zeros ds v hblank hdigits hlength
    exact toInteger_respelled hsign hblank hdigits hlength
  · obtain ⟨ds, n, hd, hlen, hlow, hhigh, rfl⟩ := toInteger_eq_ok_iff.mp hraw
    have hlong : coerce .long raw = toInteger .long (-2 ^ 63) (2 ^ 63 - 1) raw :=
      coerce_of_bounds (by simp [bounds])
    rw [hlong]
    exact toInteger_eq_ok_iff.mpr ⟨ds, n, hd, hlen, by omega, by omega, rfl⟩

/-- The greatest 32-bit integer with a sign, zeros and blanks, the integer after it, and what denotes none. -/
theorem integers_read_exactly_bounds :
    (PropertyType.integer, (-2 ^ 31 : Int), (2 ^ 31 - 1 : Int)) ∈ bounds ∧
    coerce .integer "2147483647" = .ok (.int 2147483647) ∧
    coerce .integer "\u3000+0002147483647\t" = .ok (.int 2147483647) ∧
    coerce .long "\u3000+0002147483647\t" = .ok (.int 2147483647) ∧
    coerce .integer "2147483648" = .error (.filter (.typeCoercion "INTEGER" "2147483648" none)) ∧
    coerce .integer "1_000" = .error (.filter (.typeCoercion "INTEGER" "1_000" none)) := by
  have hmem : (PropertyType.integer, (-2 ^ 31 : Int), (2 ^ 31 - 1 : Int)) ∈ bounds := by simp [bounds]
  obtain ⟨-, hrefused, -, hshown, hrespelled, hwider⟩ := integers_read_exactly _ _ _ hmem
  have hgreatest : coerce .integer "2147483647" = .ok (.int 2147483647) :=
    hshown 2147483647 (by decide) (by decide)
  have hdigits : AsciiDigits "2147483647".toList [2, 1, 4, 7, 4, 8, 3, 6, 4, 7] :=
    ⟨by decide, by simp, rfl⟩
  have hblank : isBlank '\u3000' = true ∧ isBlank '\t' = true := by decide
  have hspaced : coerce .integer "\u3000+0002147483647\t" = .ok (.int 2147483647) :=
    (hrespelled "+" "" (by decide) "\u3000" "\t" "2147483647" 3 _ _ (by simpa using hblank) hdigits
      (by decide)).mpr hgreatest
  have hnext : Denotes AsciiDigits "2147483648".toList [2, 1, 4, 7, 4, 8, 3, 6, 4, 8] 2147483648 :=
    .unsigned ⟨by decide, by simp, rfl⟩
  have hbar : ¬ ∃ ds n, Denotes AsciiDigits "1_000".toList ds n := by
    intro hh
    obtain ⟨ds, n, hd⟩ := hh
    cases hd with
    | unsigned hd => exact absurd (hd.isDigit '_' (by decide)) (by decide)
  refine ⟨hmem, hgreatest, hspaced, hwider _ _ hspaced, ?_, ?_⟩
  · exact (hrefused _).mpr (.inl ⟨_, _, hnext, by decide, by decide⟩)
  · exact (hrefused _).mpr (.inr hbar)

end RecordFilter.Coercion
