import Mathlib.Data.List.DropRight
import RecordFilter.Text.Blank

namespace RecordFilter.Text

variable {p : Char → Bool} {s body around : List Char}

/-- A text that neither starts nor ends with a character of a class. -/
structure Bare (p : Char → Bool) (s : List Char) : Prop where
  first : ∀ c ∈ s.head?, p c = false
  last : ∀ c ∈ s.getLast?, p c = false

/-- A text with nothing but characters of a class on either side of another one. -/
def Surrounds (p : Char → Bool) (s body : List Char) : Prop :=
  ∃ lead tail, s = lead ++ body ++ tail ∧ ∀ c ∈ lead ++ tail, p c = true

/-- The text without the characters of a class at its ends. -/
def strip (p : Char → Bool) (s : List Char) : List Char := (s.dropWhile p).rdropWhile p

theorem trim_eq (s : List Char) : trim s = strip isBlank s := rfl

theorem bare_strip (p : Char → Bool) (s : List Char) : Bare p (strip p s) where
  first := by
    intro c hc
    have hpre : strip p s <+: s.dropWhile p := List.rdropWhile_prefix p _
    obtain ⟨rest, hr⟩ := hpre
    have hh : c ∈ (s.dropWhile p).head? := by
      rw [← hr]
      cases hs : strip p s with
      | nil => simp [hs] at hc
      | cons x xs => simpa [hs] using hc
    have hn := List.head?_dropWhile_not p s
    rw [Option.mem_def.mp hh] at hn
    simpa using hn
  last := by
    intro c hc
    obtain ⟨hne, rfl⟩ := List.mem_getLast?_eq_getLast hc
    exact Bool.eq_false_iff.mpr (List.rdropWhile_last_not p (s.dropWhile p) hne)

theorem surrounds_strip (p : Char → Bool) (s : List Char) : Surrounds p s (strip p s) := by
  refine ⟨s.takeWhile p, (s.dropWhile p).rtakeWhile p, ?_, ?_⟩
  · rw [List.append_assoc, strip, List.rdropWhile_append_rtakeWhile,
      List.takeWhile_append_dropWhile]
  · intro c hc
    rcases List.mem_append.mp hc with h | h
    · exact List.mem_takeWhile_imp h
    · exact List.mem_rtakeWhile_imp h

/-- Only one text without blanks at its ends stands between blanks. -/
theorem strip_eq_of_surrounds (hb : Bare p body) (h : Surrounds p s body) : strip p s = body := by
  obtain ⟨lead, tail, rfl, hp⟩ := h
  have hlead : ∀ c ∈ lead, p c = true := fun c hc => hp c (List.mem_append_left _ hc)
  have htail : ∀ c ∈ tail, p c = true := fun c hc => hp c (List.mem_append_right _ hc)
  have hdrop : (lead ++ body ++ tail).dropWhile p = (body ++ tail).dropWhile p := by
    rw [List.append_assoc, List.dropWhile_append_of_pos hlead]
  cases body with
  | nil =>
    have hnil : tail.dropWhile p = [] := List.dropWhile_eq_nil_iff.mpr htail
    rw [strip, hdrop, List.nil_append, hnil]
    rfl
  | cons x xs =>
    have hx : ¬ p x = true := by simp [hb.first x (by simp)]
    have hkeep : (x :: xs ++ tail).dropWhile p = x :: xs ++ tail := by
      rw [List.cons_append, List.dropWhile_cons_of_neg hx]
    have hend : (x :: xs).rdropWhile p = x :: xs := by
      rw [List.rdropWhile_eq_self_iff]
      intro hne
      simp [hb.last _ (List.getLast_mem_getLast? hne)]
    have hcut : (x :: xs ++ tail).rdropWhile p = (x :: xs).rdropWhile p := by
      rw [List.rdropWhile, List.reverse_append, List.dropWhile_append_of_pos]
      · rfl
      · intro c hc
        exact htail c (List.mem_reverse.mp hc)
    rw [strip, hdrop, hkeep, hcut, hend]

theorem strip_of_bare (h : Bare p s) : strip p s = s :=
  strip_eq_of_surrounds h ⟨[], [], by simp, by simp⟩

/-- A text with bare ones at both ends is bare. -/
theorem Bare.of_both_ends (hb : Bare p body) (hne : body ≠ []) (hstart : body <+: s) (hend : body <:+ s) :
    Bare p s := by
  obtain ⟨tail, rfl⟩ := hstart
  obtain ⟨lead, hlead⟩ := hend
  constructor
  · rw [List.head?_append_of_ne_nil _ hne]
    exact hb.first
  · rw [← hlead, List.getLast?_append_of_ne_nil _ hne]
    exact hb.last

theorem isBlank_of_isSpacing {c : Char} (h : isSpacing c = true) : isBlank c = true := by
  unfold isSpacing at h
  exact (Bool.and_eq_true _ _ ▸ h).1

theorem Surrounds.weaken {q : Char → Bool} (hpq : ∀ c, p c = true → q c = true)
    (h : Surrounds p s body) : Surrounds q s body := by
  obtain ⟨lead, tail, hs, hp⟩ := h
  exact ⟨lead, tail, hs, fun c hc => hpq c (hp c hc)⟩

theorem Surrounds.trans {rest : List Char} (h : Surrounds p s body) (h' : Surrounds p body rest) :
    Surrounds p s rest := by
  obtain ⟨lead, tail, rfl, hp⟩ := h
  obtain ⟨lead', tail', rfl, hp'⟩ := h'
  refine ⟨lead ++ lead', tail' ++ tail, by simp, ?_⟩
  intro c hc
  simp only [List.mem_append] at hc hp hp'
  rcases hc with (h | h) | h | h
  · exact hp c (.inl h)
  · exact hp' c (.inl h)
  · exact hp' c (.inr h)
  · exact hp c (.inr h)

theorem bare_of_forall (h : ∀ c ∈ s, p c = false) : Bare p s :=
  ⟨fun c hc => h c (List.mem_of_mem_head? hc), fun c hc => h c (List.mem_of_mem_getLast? hc)⟩

theorem Bare.weaken {q : Char → Bool} (hpq : ∀ c, p c = true → q c = true) (h : Bare q s) : Bare p s := by
  have hno : ∀ c, q c = false → p c = false := by
    intro c hq
    cases hp : p c with
    | false => rfl
    | true => simp [hpq c hp] at hq
  exact ⟨fun c hc => hno c (h.first c hc), fun c hc => hno c (h.last c hc)⟩

theorem trimSpacing_trim (s : List Char) : trimSpacing (trim s) = trim s :=
  strip_of_bare ((bare_strip isBlank s).weaken fun _ => isBlank_of_isSpacing)

theorem trim_trimSpacing (s : List Char) : trim (trimSpacing s) = trim s := by
  have h : Surrounds isBlank s (trim (trimSpacing s)) :=
    ((surrounds_strip isSpacing s).weaken fun _ => isBlank_of_isSpacing).trans
      (surrounds_strip isBlank (trimSpacing s))
  exact (strip_eq_of_surrounds (bare_strip isBlank _) h).symm

/-- Both ways to trim agree exactly on the texts with nothing but spacing around what is left. -/
theorem trimSpacing_eq_trim_iff : trimSpacing s = trim s ↔ Surrounds isSpacing s (trim s) := by
  constructor
  · intro h
    rw [← h]
    exact surrounds_strip isSpacing s
  · intro h
    exact strip_eq_of_surrounds ((bare_strip isBlank s).weaken fun _ => isBlank_of_isSpacing) h

/-- Without a blank inside, what is left after spacing is what is left after blanks. -/
theorem trimSpacing_eq_trim (h : ∀ c ∈ trimSpacing s, isBlank c = false) : trimSpacing s = trim s := by
  have hself : trim (trimSpacing s) = trimSpacing s := strip_of_bare (bare_of_forall h)
  rw [← hself, trim_trimSpacing]

theorem trim_eq_nil_iff : trim s = [] ↔ allBlank s = true := by
  rw [allBlank, List.all_eq_true]
  constructor
  · intro h
    obtain ⟨lead, tail, hs, hp⟩ := surrounds_strip isBlank s
    rw [trim_eq] at h
    rw [hs, h]
    simpa using hp
  · intro h
    exact strip_eq_of_surrounds ⟨by simp, by simp⟩ ⟨s, [], by simp, by simpa using h⟩

end RecordFilter.Text
