import Mathlib.Data.List.Infix
import RecordFilter.Fault

namespace RecordFilter.Fallible

variable {ε ε' α β : Type} {x : Except ε α} {b : β}

theorem bind_eq_ok {f : α → Except ε β} : x >>= f = .ok b ↔ ∃ a, x = .ok a ∧ f a = .ok b := by
  cases x with
  | error e => simp [bind, Except.bind]
  | ok a => simp [bind, Except.bind]

theorem map_eq_ok {f : α → β} : x.map f = .ok b ↔ ∃ a, x = .ok a ∧ f a = b := by
  cases x with
  | error e => simp [Except.map]
  | ok a => simp [Except.map]

theorem bind_eq_error {f : α → Except ε β} {e : ε} :
    x >>= f = .error e ↔ x = .error e ∨ ∃ a, x = .ok a ∧ f a = .error e := by
  cases x with
  | error e' => simp [bind, Except.bind]
  | ok a => simp [bind, Except.bind]

theorem map_eq_error {f : α → β} {e : ε} : x.map f = .error e ↔ x = .error e := by
  cases x <;> simp [Except.map]

theorem mapError_eq_error {f : ε → ε'} {e : ε'} :
    x.mapError f = .error e ↔ ∃ e', x = .error e' ∧ f e' = e := by
  cases x <;> simp [Except.mapError]

theorem mapError_eq_ok {f : ε → ε'} {a : α} : x.mapError f = .ok a ↔ x = .ok a := by
  cases x <;> simp [Except.mapError]

theorem toOption_eq_some_iff {a : α} : x.toOption = some a ↔ x = .ok a := by
  cases x <;> simp [Except.toOption]

/-- Where two steps go well alike, they fail alike. -/
theorem exists_error_iff_of_ok_iff {y : Except ε' α} (h : ∀ a, x = .ok a ↔ y = .ok a) :
    (∃ e, x = .error e) ↔ ∃ e, y = .error e := by
  cases x with
  | error e => cases y with
    | error e' => simp
    | ok a => simpa using (h a).mpr rfl
  | ok a =>
    have hy : y = .ok a := (h a).mp rfl
    simp [hy]

theorem inRange_eq_ok_iff {x : Option α} {a : α} : inRange x = .ok a ↔ x = some a := by
  cases x <;> simp [inRange]

theorem inRange_eq_error_iff {x : Option α} {f : Fault} :
    inRange x = .error f ↔ x = none ∧ f = .overflow := by
  cases x <;> simp [inRange, eq_comm]

section Reaching

variable {passes stops : α → Prop} {a : α} {xs : List α}

/-- Going through a list past elements that pass, one that stops is reached. -/
inductive Reaches (passes stops : α → Prop) : List α → Prop
  | here {a : α} {xs : List α} (ha : stops a) : Reaches passes stops (a :: xs)
  | later {a : α} {xs : List α} (ha : passes a) (hxs : Reaches passes stops xs) :
    Reaches passes stops (a :: xs)

@[simp] theorem not_reaches_nil : ¬ Reaches passes stops [] := by
  rintro ⟨⟩

@[simp] theorem reaches_cons_iff :
    Reaches passes stops (a :: xs) ↔ stops a ∨ passes a ∧ Reaches passes stops xs := by
  constructor
  · intro h
    cases h with
    | here ha => exact .inl ha
    | later ha hxs => exact .inr ⟨ha, hxs⟩
  · intro h
    rcases h with ha | ⟨ha, hxs⟩
    · exact .here ha
    · exact .later ha hxs

theorem Reaches.exists (h : Reaches passes stops xs) : ∃ a ∈ xs, stops a := by
  induction h with
  | here ha => exact ⟨_, by simp, ha⟩
  | later _ _ ih =>
    obtain ⟨a, hm, ha⟩ := ih
    exact ⟨a, by simp [hm], ha⟩

theorem reaches_congr {stops' : α → Prop} (h : ∀ a ∈ xs, (stops a ↔ stops' a)) :
    Reaches passes stops xs ↔ Reaches passes stops' xs := by
  induction xs with
  | nil => simp
  | cons a xs ih => rw [reaches_cons_iff, reaches_cons_iff, h a (by simp), ih fun b hb => h b (by simp [hb])]

/-- What is reached stands behind elements that pass. -/
theorem reaches_iff_append :
    Reaches passes stops xs ↔
      ∃ front a back, xs = front ++ a :: back ∧ (∀ x ∈ front, passes x) ∧ stops a := by
  constructor
  · intro h
    induction h with
    | here ha => exact ⟨[], _, _, rfl, by simp, ha⟩
    | later ha _ ih =>
      obtain ⟨front, b, back, rfl, hfront, hb⟩ := ih
      exact ⟨_ :: front, b, back, rfl, by simpa using ⟨ha, hfront⟩, hb⟩
  · intro hh
    obtain ⟨front, a, back, rfl, hfront, ha⟩ := hh
    induction front with
    | nil => exact .here ha
    | cons x front ih =>
      obtain ⟨hx, hfront⟩ := List.forall_mem_cons.mp hfront
      exact .later hx (ih hfront)

end Reaching

section Runs

variable {f : α → Except ε β} {xs : List α} {ys : List β}

theorem mapM_cons_eq_ok {a : α} :
    (a :: xs).mapM f = .ok ys ↔ ∃ c cs, f a = .ok c ∧ xs.mapM f = .ok cs ∧ ys = c :: cs := by
  rw [List.mapM_cons, bind_eq_ok]
  constructor
  · intro hh
    obtain ⟨c, hc, h⟩ := hh
    obtain ⟨cs, hcs, h⟩ := bind_eq_ok.mp h
    exact ⟨c, cs, hc, hcs, (Except.ok.inj h).symm⟩
  · intro hh
    obtain ⟨c, cs, hc, hcs, rfl⟩ := hh
    exact ⟨c, hc, bind_eq_ok.mpr ⟨cs, hcs, rfl⟩⟩

/-- The results of a run are those of its steps. -/
theorem mem_mapM_iff (h : xs.mapM f = .ok ys) (y : β) : y ∈ ys ↔ ∃ x ∈ xs, f x = .ok y := by
  induction xs generalizing ys with
  | nil =>
    have hy : ys = [] := (Except.ok.inj h).symm
    simp [hy]
  | cons a xs ih =>
    obtain ⟨c, cs, hc, hcs, rfl⟩ := mapM_cons_eq_ok.mp h
    simp [ih hcs, hc, eq_comm]

theorem forall₂_of_mapM (h : xs.mapM f = .ok ys) : List.Forall₂ (fun x y => f x = .ok y) xs ys := by
  induction xs generalizing ys with
  | nil =>
    obtain rfl : ys = [] := (Except.ok.inj h).symm
    exact .nil
  | cons a xs ih =>
    obtain ⟨c, cs, hc, hcs, rfl⟩ := mapM_cons_eq_ok.mp h
    exact .cons hc (ih hcs)

theorem forall₂_of_mapM_mapM {γ : Type} {g : β → Except ε γ} {zs : List γ} (h : xs.mapM f = .ok ys)
    (h' : ys.mapM g = .ok zs) : List.Forall₂ (fun x z => ∃ y, f x = .ok y ∧ g y = .ok z) xs zs := by
  induction xs generalizing ys zs with
  | nil =>
    obtain rfl : ys = [] := (Except.ok.inj h).symm
    obtain rfl : zs = [] := (Except.ok.inj h').symm
    exact .nil
  | cons a xs ih =>
    obtain ⟨c, cs, hc, hcs, rfl⟩ := mapM_cons_eq_ok.mp h
    obtain ⟨d, ds, hd, hds, rfl⟩ := mapM_cons_eq_ok.mp h'
    exact .cons ⟨c, hc, hd⟩ (ih hcs hds)

theorem exists_of_mapM (h : xs.mapM f = .ok ys) {x : α} (hx : x ∈ xs) : ∃ y, f x = .ok y := by
  induction xs generalizing ys with
  | nil => simp at hx
  | cons a xs ih =>
    obtain ⟨c, cs, hc, hcs, rfl⟩ := mapM_cons_eq_ok.mp h
    rcases List.mem_cons.mp hx with rfl | hx
    · exact ⟨c, hc⟩
    · exact ih hcs hx

/-- A run goes well when each of its steps does. -/
theorem exists_mapM_iff : (∃ ys, xs.mapM f = .ok ys) ↔ ∀ x ∈ xs, ∃ y, f x = .ok y := by
  constructor
  · intro h x hx
    obtain ⟨ys, h⟩ := h
    exact exists_of_mapM h hx
  · intro h
    induction xs with
    | nil => exact ⟨[], rfl⟩
    | cons a xs ih =>
      obtain ⟨⟨c, hc⟩, hxs⟩ := List.forall_mem_cons.mp h
      obtain ⟨cs, hcs⟩ := ih hxs
      exact ⟨c :: cs, mapM_cons_eq_ok.mpr ⟨c, cs, hc, hcs, rfl⟩⟩

/-- The result at a place is that of the step there. -/
theorem getElem?_of_mapM (h : xs.mapM f = .ok ys) {i : Nat} {x : α} (hx : xs[i]? = some x) :
    ∃ y, ys[i]? = some y ∧ f x = .ok y := by
  induction xs generalizing ys i with
  | nil => cases hx
  | cons a xs ih =>
    obtain ⟨c, cs, hc, hcs, rfl⟩ := mapM_cons_eq_ok.mp h
    cases i with
    | zero =>
      obtain rfl := Option.some.inj hx
      exact ⟨c, rfl, hc⟩
    | succ i => exact ih hcs hx

/-- A run fails as its first failing step does. -/
theorem mapM_eq_error_iff {e : ε} :
    xs.mapM f = .error e ↔ Reaches (fun x => ∃ b, f x = .ok b) (f · = .error e) xs := by
  induction xs with
  | nil => simp [pure, Except.pure]
  | cons a xs ih =>
    rw [List.mapM_cons, bind_eq_error, reaches_cons_iff, ← ih]
    constructor
    · intro hh
      rcases hh with ha | ⟨b, hb, hh⟩
      · exact .inl ha
      · rcases bind_eq_error.mp hh with hxs | ⟨bs, -, hbs⟩
        · exact .inr ⟨⟨b, hb⟩, hxs⟩
        · cases hbs
    · intro hh
      rcases hh with ha | ⟨⟨b, hb⟩, hxs⟩
      · exact .inl ha
      · exact .inr ⟨b, hb, bind_eq_error.mpr (.inl hxs)⟩

theorem mapM_append_eq_ok {zs : List β} {xs' : List α} :
    (xs ++ xs').mapM f = .ok zs ↔ ∃ ys ys', xs.mapM f = .ok ys ∧ xs'.mapM f = .ok ys' ∧ zs = ys ++ ys' := by
  rw [List.mapM_append, bind_eq_ok]
  constructor
  · intro hh
    obtain ⟨ys, hys, h⟩ := hh
    obtain ⟨ys', hys', h⟩ := bind_eq_ok.mp h
    exact ⟨ys, ys', hys, hys', (Except.ok.inj h).symm⟩
  · intro hh
    obtain ⟨ys, ys', hys, hys', rfl⟩ := hh
    exact ⟨ys, hys, bind_eq_ok.mpr ⟨ys', hys', rfl⟩⟩

theorem mapM_append_eq_error {e : ε} {xs' : List α} :
    (xs ++ xs').mapM f = .error e ↔
      xs.mapM f = .error e ∨ (∃ ys, xs.mapM f = .ok ys) ∧ xs'.mapM f = .error e := by
  rw [List.mapM_append, bind_eq_error]
  simp only [bind_eq_error, pure, Except.pure, reduceCtorEq, and_false, exists_false, or_false,
    exists_and_right]

/-- Leaving out elements whose steps go well leaves out their results. -/
theorem mapM_filter {keep : α → Bool} {keep' : β → Bool} (hskip : ∀ x, keep x = false → ∃ y, f x = .ok y)
    (hkeep : ∀ x y, f x = .ok y → keep' y = keep x) (xs : List α) :
    (xs.filter keep).mapM f = (xs.mapM f).map (List.filter keep') := by
  induction xs with
  | nil => rfl
  | cons a xs ih =>
    cases ha : keep a with
    | false =>
      obtain ⟨c, hc⟩ := hskip a ha
      have hc' : ¬ keep' c = true := by simp [hkeep a c hc, ha]
      rw [List.filter_cons_of_neg (by simp [ha]), ih, List.mapM_cons, hc]
      cases xs.mapM f with
      | error e => rfl
      | ok cs => exact congrArg Except.ok (List.filter_cons_of_neg hc').symm
    | true =>
      rw [List.filter_cons_of_pos ha, List.mapM_cons, ih, List.mapM_cons]
      cases hc : f a with
      | error e => rfl
      | ok c =>
        have hc' : keep' c = true := (hkeep a c hc).trans ha
        cases xs.mapM f with
        | error e => rfl
        | ok cs => exact congrArg Except.ok (List.filter_cons_of_pos hc').symm

/-- What is reached among the results of a run is reached among its inputs. -/
theorem reaches_mapM_iff (h : xs.mapM f = .ok ys) {passes stops : β → Prop} :
    Reaches passes stops ys ↔
      Reaches (fun x => ∃ y, f x = .ok y ∧ passes y) (fun x => ∃ y, f x = .ok y ∧ stops y) xs := by
  induction xs generalizing ys with
  | nil =>
    obtain rfl : ys = [] := (Except.ok.inj h).symm
    simp
  | cons a xs ih =>
    obtain ⟨c, cs, hc, hcs, rfl⟩ := mapM_cons_eq_ok.mp h
    simp [ih hcs, hc]

end Runs

section Folds

variable {σ : Type} {f : σ → α → Except ε σ} {xs : List α} {s s' : σ}

theorem foldlM_concat_eq_ok {a : α} :
    (xs ++ [a]).foldlM f s = .ok s' ↔ ∃ t, xs.foldlM f s = .ok t ∧ f t a = .ok s' := by
  rw [List.foldlM_append, bind_eq_ok]
  simp only [List.foldlM_cons, List.foldlM_nil, bind_pure]

/-- A fold fails at the first element that is refused after those in front of it. -/
theorem foldlM_eq_error_iff {e : ε} :
    xs.foldlM f s = .error e ↔
      ∃ front a back t, xs = front ++ a :: back ∧ front.foldlM f s = .ok t ∧ f t a = .error e := by
  constructor
  · intro h
    induction xs generalizing s with
    | nil => cases h
    | cons x xs ih =>
      rw [List.foldlM_cons, bind_eq_error] at h
      rcases h with hx | ⟨t, hx, hxs⟩
      · exact ⟨[], x, xs, s, rfl, rfl, hx⟩
      · obtain ⟨front, a, back, u, rfl, hfront, ha⟩ := ih hxs
        refine ⟨x :: front, a, back, u, rfl, ?_, ha⟩
        rw [List.foldlM_cons, bind_eq_ok]
        exact ⟨t, hx, hfront⟩
  · intro h
    obtain ⟨front, a, back, t, rfl, hfront, ha⟩ := h
    rw [List.foldlM_append, bind_eq_error]
    refine .inr ⟨t, hfront, ?_⟩
    rw [List.foldlM_cons, bind_eq_error]
    exact .inl ha

end Folds

end RecordFilter.Fallible
