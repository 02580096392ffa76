import Mathlib.Tactic.SplitIfs
import RecordFilter.Value.Basic

namespace RecordFilter.Value

mutual

/-- Whether a value is the one that is no number, or holds it at any depth. -/
def holdsNan : Value → Bool
  | .float .nan => true
  | .list xs | .tuple xs | .set xs => itemsHoldNan xs
  | .map es => entriesHoldNan es
  | _ => false

def itemsHoldNan : List Value → Bool
  | [] => false
  | x :: xs => holdsNan x || itemsHoldNan xs

def entriesHoldNan : List (Value × Value) → Bool
  | [] => false
  | (k, v) :: rest => holdsNan k || holdsNan v || entriesHoldNan rest

end

variable {xs ys : List Value} {es : List (Value × Value)}

theorem equalItems_self (h : ∀ x ∈ xs, x.equal x = true) : equalItems xs xs = true := by
  induction xs with
  | nil => simp [equalItems]
  | cons x xs ih =>
    have hx : x.equal x = true := h x (by simp)
    have hxs : equalItems xs xs = true := ih fun y hy => h y (by simp [hy])
    rw [equalItems, hx, hxs]
    rfl

theorem allAmong_of_subset (h : ∀ x ∈ xs, x.equal x = true) (hsub : xs ⊆ ys) : allAmong xs ys = true := by
  induction xs with
  | nil => simp [allAmong]
  | cons x xs ih =>
    have hx : ys.any (fun y => x.equal y) = true :=
      List.any_eq_true.mpr ⟨x, hsub (by simp), h x (by simp)⟩
    have hxs : allAmong xs ys = true :=
      ih (fun y hy => h y (by simp [hy])) fun y hy => hsub (by simp [hy])
    rw [allAmong, hx, hxs]
    rfl

theorem entriesAmong_of_subset {fs : List (Value × Value)}
    (h : ∀ e ∈ es, e.1.equal e.1 = true ∧ e.2.equal e.2 = true) (hsub : es ⊆ fs) :
    entriesAmong es fs = true := by
  induction es with
  | nil => simp [entriesAmong]
  | cons e es ih =>
    obtain ⟨k, v⟩ := e
    have he := h (k, v) (by simp)
    have hany : fs.any (fun f => k.equal f.1 && v.equal f.2) = true :=
      List.any_eq_true.mpr ⟨(k, v), hsub (by simp), by simp [he.1, he.2]⟩
    have hes : entriesAmong es fs = true :=
      ih (fun f hf => h f (by simp [hf])) fun f hf => hsub (by simp [hf])
    rw [entriesAmong, hany, hes]
    rfl

mutual

theorem equal_of_holdsNan_eq_false (v : Value) (h : v.holdsNan = false) : v.equal v = true := by
  match v with
  | .null => simp [equal, equalLeaf, number?, moment?]
  | .bool b => simp [equal, equalLeaf, number?]
  | .int n => simp [equal, equalLeaf, number?]
  | .float (.finite s u) => simp [equal, equalLeaf, number?, Place.ofDouble?]
  | .float (.infinite s) => simp [equal, equalLeaf, number?, Place.ofDouble?]
  | .float .nan => simp [holdsNan] at h
  | .text s => simp [equal, equalLeaf, number?, moment?]
  | .date d => simp [equal, equalLeaf, number?, moment?]
  | .dateTime t none => simp [equal, equalLeaf, number?, moment?]
  | .dateTime t (some o) => simp [equal, equalLeaf, number?, moment?]
  | .zoned t o => simp [equal, equalLeaf, number?, moment?]
  | .bytes bs => simp [equal, equalLeaf, number?, moment?]
  | .list xs =>
    rw [holdsNan] at h
    rw [equal]
    exact equalItems_self (equal_items_of_holdsNan_eq_false xs h)
  | .tuple xs =>
    rw [holdsNan] at h
    rw [equal]
    exact equalItems_self (equal_items_of_holdsNan_eq_false xs h)
  | .set xs =>
    rw [holdsNan] at h
    have hall := allAmong_of_subset (equal_items_of_holdsNan_eq_false xs h) (List.Subset.refl xs)
    rw [equal, hall]
    simp
  | .map es =>
    rw [holdsNan] at h
    have hall := entriesAmong_of_subset (equal_entries_of_holdsNan_eq_false es h) (List.Subset.refl es)
    rw [equal, hall]
    simp

theorem equal_items_of_holdsNan_eq_false (xs : List Value) (h : itemsHoldNan xs = false) :
    ∀ x ∈ xs, x.equal x = true := by
  match xs with
  | [] => simp
  | x :: xs =>
    obtain ⟨hx, hxs⟩ := Bool.or_eq_false_iff.mp h
    rw [List.forall_mem_cons]
    exact ⟨equal_of_holdsNan_eq_false x hx, equal_items_of_holdsNan_eq_false xs hxs⟩

theorem equal_entries_of_holdsNan_eq_false (es : List (Value × Value)) (h : entriesHoldNan es = false) :
    ∀ e ∈ es, e.1.equal e.1 = true ∧ e.2.equal e.2 = true := by
  match es with
  | [] => simp
  | (k, v) :: es =>
    obtain ⟨hkv, hes⟩ := Bool.or_eq_false_iff.mp h
    obtain ⟨hk, hv⟩ := Bool.or_eq_false_iff.mp hkv
    rw [List.forall_mem_cons]
    exact ⟨⟨equal_of_holdsNan_eq_false k hk, equal_of_holdsNan_eq_false v hv⟩,
      equal_entries_of_holdsNan_eq_false es hes⟩

end

end RecordFilter.Value
