import Mathlib
import RecordFilter.Proofs.Number.Digits
import RecordFilter.Query.Coercion

namespace RecordFilter.Coercion

open Numeral (AsciiDigits Denotes maxDigits)
open Text

variable {type : PropertyType} {low high n : Int} {raw : String} {s digits : List Char} {ds : List Nat}

/-- A sign or none, and then ASCII digits. -/
structure IsLiteral (s digits : List Char) : Prop where
  digits_ne_nil : digits ≠ []
  isDigit : ∀ c ∈ digits, c.isDigit = true
  signed : s = digits ∨ s = '+' :: digits ∨ s = '-' :: digits

theorem asciiDigit?_isSome (c : Char) : (asciiDigit? c).isSome = c.isDigit := by
  have hd : c.isDigit = true ↔ 48 ≤ c.toNat ∧ c.toNat ≤ 57 := by
    rw [Char.isDigit, Bool.and_eq_true, decide_eq_true_eq, decide_eq_true_eq]
    rfl
  unfold asciiDigit?
  split_ifs with h
  · exact (hd.mpr h).symm
  · exact (Bool.eq_false_iff.mpr fun hc => h (hd.mp hc)).symm

theorem asciiDigits?_cons_eq_some {c : Char} {s : List Char} {ns : List Nat} :
    asciiDigits? (c :: s) = some ns ↔
      ∃ d ds, asciiDigit? c = some d ∧ asciiDigits? s = some ds ∧ ns = d :: ds := by
  rw [asciiDigits?]
  cases asciiDigit? c <;> cases asciiDigits? s <;> simp [eq_comm]

/-- All characters have to be digits, and each is read as its digit. -/
theorem asciiDigits?_eq_some_iff {s : List Char} {ns : List Nat} :
    asciiDigits? s = some ns ↔ (∀ c ∈ s, c.isDigit = true) ∧ ns = s.map digitOf := by
  induction s generalizing ns with
  | nil =>
    have hnil : asciiDigits? [] = some ns ↔ ns = [] := by rw [asciiDigits?, Option.some.injEq, eq_comm]
    simp [hnil]
  | cons c s ih =>
    rw [asciiDigits?_cons_eq_some, List.forall_mem_cons, List.map_cons]
    constructor
    · intro hh
      obtain ⟨d, ds, hd, hs, rfl⟩ := hh
      obtain ⟨hall, rfl⟩ := ih.mp hs
      have hc : c.isDigit = true := by rw [← asciiDigit?_isSome, hd, Option.isSome_some]
      have hdigit : d = digitOf c := Option.some.inj (hd.symm.trans (asciiDigit?_of_isDigit hc))
      exact ⟨⟨hc, hall⟩, by rw [hdigit]⟩
    · intro hh
      obtain ⟨⟨hc, hall⟩, rfl⟩ := hh
      exact ⟨_, _, asciiDigit?_of_isDigit hc, ih.mpr ⟨hall, rfl⟩, rfl⟩

theorem asciiDigits_iff : AsciiDigits s ds ↔ asciiDigits? s = some ds ∧ ds ≠ [] := by
  rw [asciiDigits?_eq_some_iff]
  constructor
  · intro h
    exact ⟨⟨h.isDigit, h.digits⟩, by simpa [h.digits] using h.ne_nil⟩
  · intro hh
    obtain ⟨⟨hall, rfl⟩, hne⟩ := hh
    exact ⟨fun hnil => hne (by rw [hnil]; rfl), hall, rfl⟩

theorem integerLiteral?_eq_some_iff {negative : Bool} :
    integerLiteral? s = some (negative, ds) ↔
      (Numeral.takeSign s).1 = negative ∧ AsciiDigits (Numeral.takeSign s).2 ds := by
  rw [integerLiteral?, asciiDigits_iff]
  obtain ⟨sign, body⟩ := Numeral.takeSign s
  simp only
  cases asciiDigits? body with
  | none => simp
  | some es =>
    cases es with
    | nil => simp +contextual
    | cons e es =>
      simp only [Option.some.injEq, Prod.mk.injEq]
      constructor
      · rintro ⟨rfl, rfl⟩
        simp
      · rintro ⟨rfl, rfl, -⟩
        simp

theorem integerLiteral?_of_denotes (h : Denotes AsciiDigits s ds n) :
    ∃ negative, integerLiteral? s = some (negative, ds) ∧
      Numeral.signed negative (Numeral.ofDigits ds) = n := by
  obtain ⟨hdigits, rfl⟩ := Numeral.denotes_asciiDigits_iff.mp h
  exact ⟨_, integerLiteral?_eq_some_iff.mpr ⟨rfl, hdigits⟩, by rw [Numeral.ofDigits_eq_value]⟩

theorem toInteger_of_denotes (h : Denotes AsciiDigits (trim raw.toList) ds n) :
    toInteger type low high raw =
      if maxDigits < ds.length then .error (.unreadable "")
      else if low ≤ n ∧ n ≤ high then .ok (.int n) else .error (refused type raw) := by
  obtain ⟨negative, hlit, rfl⟩ := integerLiteral?_of_denotes h
  rw [toInteger, hlit]

theorem toInteger_of_not_denotes (h : ¬ ∃ ds n, Denotes AsciiDigits (trim raw.toList) ds n) :
    toInteger type low high raw = .error (refused type raw) := by
  have hnone : integerLiteral? (trim raw.toList) = none := by
    rw [Option.eq_none_iff_forall_ne_some]
    rintro ⟨negative, ds⟩ hlit
    have hdigits := (integerLiteral?_eq_some_iff.mp hlit).2
    exact h ⟨ds, _, Numeral.denotes_asciiDigits_iff.mpr ⟨hdigits, rfl⟩⟩
  rw [toInteger, hnone]

/-- What comes of reading a text as an integer between two bounds. -/
inductive Reading (type : PropertyType) (low high : Int) (raw : String) : Except Fault Value → Prop
  | within {ds : List Nat} {n : Int} (hd : Denotes AsciiDigits (trim raw.toList) ds n)
    (hlen : ds.length ≤ maxDigits) (hlow : low ≤ n) (hhigh : n ≤ high) :
    Reading type low high raw (.ok (.int n))
  | outside {ds : List Nat} {n : Int} (hd : Denotes AsciiDigits (trim raw.toList) ds n)
    (hlen : ds.length ≤ maxDigits) (hrange : ¬ (low ≤ n ∧ n ≤ high)) :
    Reading type low high raw (.error (refused type raw))
  | long {ds : List Nat} {n : Int} (hd : Denotes AsciiDigits (trim raw.toList) ds n)
    (hlong : maxDigits < ds.length) : Reading type low high raw (.error (.unreadable ""))
  | other (hnot : ¬ ∃ ds n, Denotes AsciiDigits (trim raw.toList) ds n) :
    Reading type low high raw (.error (refused type raw))

theorem reading_toInteger (type : PropertyType) (low high : Int) (raw : String) :
    Reading type low high raw (toInteger type low high raw) := by
  by_cases hd : ∃ ds n, Denotes AsciiDigits (trim raw.toList) ds n
  · obtain ⟨ds, n, hd⟩ := hd
    rw [toInteger_of_denotes hd]
    split_ifs with hlong hrange
    · exact .long hd hlong
    · exact .within hd (Nat.not_lt.mp hlong) hrange.1 hrange.2
    · exact .outside hd (Nat.not_lt.mp hlong) hrange
  · rw [toInteger_of_not_denotes hd]
    exact .other hd

/-- A literal denotes an integer, with as many digits as it has. -/
theorem IsLiteral.denotes (h : IsLiteral s digits) : ∃ n, Denotes AsciiDigits s (digits.map digitOf) n := by
  have hdigits : AsciiDigits digits (digits.map digitOf) := ⟨h.digits_ne_nil, h.isDigit, rfl⟩
  obtain ⟨-, -, rfl | rfl | rfl⟩ := h
  · exact ⟨_, .unsigned hdigits⟩
  · exact ⟨_, .plus hdigits⟩
  · exact ⟨_, .minus hdigits⟩

theorem isLiteral_of_denotes (h : Denotes AsciiDigits s ds n) :
    ∃ digits, IsLiteral s digits ∧ ds.length = digits.length := by
  have hlen : ∀ {body : List Char}, AsciiDigits body ds → ds.length = body.length := by
    intro body hb
    rw [hb.digits, List.length_map]
  cases h with
  | unsigned hb => exact ⟨_, ⟨hb.ne_nil, hb.isDigit, .inl rfl⟩, hlen hb⟩
  | plus hb => exact ⟨_, ⟨hb.ne_nil, hb.isDigit, .inr (.inl rfl)⟩, hlen hb⟩
  | minus hb => exact ⟨_, ⟨hb.ne_nil, hb.isDigit, .inr (.inr rfl)⟩, hlen hb⟩

end RecordFilter.Coercion
