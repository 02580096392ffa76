import Mathlib.Data.List.Induction
import Mathlib.Data.List.Pairwise
import RecordFilter.Document.Load
import RecordFilter.Proofs.Value.Equality

namespace RecordFilter.Value

/-- What a value that holds no others stands for: a number for its amount, a moment with an offset for its instant. -/
inductive Content
  | nothing
  | amount (p : Place)
  | moment (m : Moment)
  | text (s : String)
  | date (d : Calendar.Date)
  | bytes (bs : List UInt8)

/-- Empty for the value that is no number. -/
def content? : Value → Option Content
  | .null => some .nothing
  | .bool b => some (.amount (Place.ofInt (if b then 1 else 0)))
  | .int n => some (.amount (Place.ofInt n))
  | .float x => (Place.ofDouble? x).map .amount
  | .text s => some (.text s)
  | .date d => some (.date d)
  | .dateTime t none => some (.moment ⟨t.micros, false⟩)
  | .dateTime t (some offset) | .zoned t offset => some (.moment ⟨t.micros - offset * 1000000, true⟩)
  | .bytes bs => some (.bytes bs)
  | .list _ | .tuple _ | .set _ | .map _ => none

/-- What a key stands for. -/
inductive Identity
  | single (c : Content)
  | row (items : List Identity)

mutual

def identity? : Value → Option Identity
  | .tuple xs => (identities? xs).map .row
  | v => v.content?.map .single

def identities? : List Value → Option (List Identity)
  | [] => some []
  | x :: xs => (identity? x).bind fun i => (identities? xs).map (i :: ·)

end

theorem equalLeaf_iff (a b : Value) :
    a.equalLeaf b = true ↔ a.content?.isSome = true ∧ a.content? = b.content? := by
  -- On all pairs of kinds: numbers and moments meet across kinds, the others only among themselves.
  rcases a with _ | _ | _ | (_ | _ | _) | _ | _ | _ | _ | _ | _ | ⟨_, _ | _⟩ | _ | _ <;>
    rcases b with _ | _ | _ | (_ | _ | _) | _ | _ | _ | _ | _ | _ | ⟨_, _ | _⟩ | _ | _ <;>
    simp [equalLeaf, number?, moment?, content?, Place.ofDouble?]

theorem map_single_eq_identity? (c : Content) (b : Value) :
    some (.single c) = b.identity? ↔ some c = b.content? := by
  cases b with
  | tuple ys => cases hys : identities? ys <;> simp [identity?, content?, hys]
  | _ =>
    simp only [identity?]
    generalize content? _ = o
    cases o <;> simp

theorem equal_tuple_iff (xs : List Value) (b : Value) :
    (Value.tuple xs).equal b = true ↔ ∃ ys, b = .tuple ys ∧ equalItems xs ys = true := by
  cases b <;> simp [equal]

theorem identity?_eq_row_iff {v : Value} {is : List Identity} :
    v.identity? = some (.row is) ↔ ∃ xs, v = .tuple xs ∧ identities? xs = some is := by
  cases v <;> simp [identity?]

mutual

/-- Keys are equal when they stand for the same thing. -/
theorem equal_iff_identity (a b : Value) (h : a.isKey = true) :
    a.equal b = true ↔ a.identity?.isSome = true ∧ a.identity? = b.identity? := by
  match a with
  | .tuple xs =>
    rw [isKey] at h
    rw [equal_tuple_iff, identity?]
    constructor
    · intro hh
      obtain ⟨ys, rfl, hitems⟩ := hh
      obtain ⟨hsome, hsame⟩ := (equalItems_iff_identities xs ys h).mp hitems
      rw [identity?, ← hsame]
      simpa using hsome
    · intro hh
      obtain ⟨hsome, hsame⟩ := hh
      obtain ⟨is, his⟩ := Option.isSome_iff_exists.mp (by simpa using hsome)
      rw [his] at hsame
      obtain ⟨ys, rfl, hys⟩ := identity?_eq_row_iff.mp hsame.symm
      exact ⟨ys, rfl, (equalItems_iff_identities xs ys h).mpr ⟨by simp [his], his.trans hys.symm⟩⟩
  | .list _ | .set _ | .map _ => simp [isKey] at h
  | .null | .bool _ | .int _ | .float _ | .text _ | .date _ | .dateTime _ _ | .zoned _ _ | .bytes _ =>
    rw [equal, equalLeaf_iff]
    simp only [identity?]
    generalize content? _ = o
    cases o with
    | none => simp
    | some c => simpa using (map_single_eq_identity? c b).symm

theorem equalItems_iff_identities (xs ys : List Value) (h : areKeys xs = true) :
    equalItems xs ys = true ↔ (identities? xs).isSome = true ∧ identities? xs = identities? ys := by
  match xs, ys with
  | [], [] => simp [equalItems, identities?]
  | [], y :: ys => cases hy : identity? y <;> cases hys : identities? ys <;> simp [equalItems, identities?, hy, hys]
  | x :: xs, [] => cases hx : identity? x <;> cases hxs : identities? xs <;> simp [equalItems, identities?, hx, hxs]
  | x :: xs, y :: ys =>
    obtain ⟨hx, hxs⟩ := Bool.and_eq_true_iff.mp h
    rw [equalItems, Bool.and_eq_true, equal_iff_identity x y hx, equalItems_iff_identities xs ys hxs]
    simp only [identities?]
    cases identity? x <;> cases identity? y <;> cases identities? xs <;> cases identities? ys <;> simp

end

section Keys

variable {a b c key value : Value} {entries : List (Value × Value)} {e : Value × Value}

theorem equal_comm (ha : a.isKey = true) (hb : b.isKey = true) : a.equal b = b.equal a := by
  rw [Bool.eq_iff_iff, equal_iff_identity a b ha, equal_iff_identity b a hb]
  constructor
  · intro h
    exact ⟨h.2 ▸ h.1, h.2.symm⟩
  · intro h
    exact ⟨h.2 ▸ h.1, h.2.symm⟩

theorem equal_trans (ha : a.isKey = true) (hb : b.isKey = true) (hab : a.equal b = true) (hbc : b.equal c = true) :
    a.equal c = true := by
  rw [equal_iff_identity a b ha] at hab
  rw [equal_iff_identity b c hb] at hbc
  rw [equal_iff_identity a c ha]
  exact ⟨hab.1, hab.2.trans hbc.2⟩

/-- A value by which an entry is found again: a key that neither is nor holds the value that is no number. Of that one
nothing tells whether two occurrences are the same. -/
structure Findable (v : Value) : Prop where
  isKey : v.isKey = true
  holdsNan : v.holdsNan = false

theorem Findable.equal_self (h : Findable a) : a.equal a = true := equal_of_holdsNan_eq_false a h.holdsNan

/-- Entries as a mapping has them: no two keys are equal, and an entry is found by its key. -/
structure Keyed (entries : List (Value × Value)) : Prop where
  findable : ∀ e ∈ entries, Findable e.1
  apart : entries.Pairwise fun e f => e.1.equal f.1 = false

/-- An entry is found under each key that is equal to its own. -/
theorem Keyed.lookup?_eq_some (h : Keyed entries) (he : e ∈ entries) (hkey : key.isKey = true)
    (hequal : e.1.equal key = true) : lookup? key entries = some e.2 := by
  obtain ⟨hfindable, hapart⟩ := h
  rw [lookup?]
  induction entries with
  | nil => cases he
  | cons f entries ih =>
    obtain ⟨hf, hrest⟩ := List.forall_mem_cons.mp hfindable
    obtain ⟨hfirst, hothers⟩ := List.pairwise_cons.mp hapart
    rcases List.mem_cons.mp he with rfl | he
    · simp [hequal]
    · have hpassed : f.1.equal key = false := by
        rw [Bool.eq_false_iff]
        intro hf'
        have hback : key.equal e.1 = true := equal_comm (hrest e he).isKey hkey ▸ hequal
        have hsame := equal_trans hf.isKey hkey hf' hback
        rw [hfirst e he] at hsame
        cases hsame
      rw [List.find?_cons, hpassed]
      exact ih he hrest hothers

theorem lookup?_eq_none (h : ∀ e ∈ entries, e.1.equal key = false) : lookup? key entries = none := by
  rw [lookup?, Option.map_eq_none_iff, List.find?_eq_none]
  intro e he
  simp [h e he]

/-- A new value leaves the keys as they are; a new key is equal to none of them. -/
theorem Keyed.assign (h : Keyed entries) (hkey : Findable key) : Keyed (assign entries key value) := by
  rw [Value.assign]
  cases hany : entries.any fun e => e.1.equal key with
  | true =>
    have hfst : ∀ e : Value × Value, (if e.1.equal key then (e.1, value) else e).1 = e.1 := by
      intro e
      split <;> rfl
    refine ⟨List.forall_mem_map.mpr fun e he => ?_, List.pairwise_map.mpr ?_⟩
    · rw [hfst]
      exact h.findable e he
    · simpa only [hfst] using h.apart
  | false =>
    have hnew : ∀ e ∈ entries, e.1.equal key = false := by simpa using List.any_eq_false.mp hany
    constructor
    · intro e he
      rcases List.mem_append.mp he with he | he
      · exact h.findable e he
      · rwa [List.mem_singleton.mp he]
    · refine List.pairwise_append.mpr ⟨h.apart, List.pairwise_singleton _ _, fun e he f hf => ?_⟩
      rw [List.mem_singleton.mp hf]
      exact hnew e he

theorem keyed_mappingOf (h : ∀ e ∈ entries, Findable e.1) : Keyed (Document.mappingOf entries) := by
  rw [Document.mappingOf]
  induction entries using List.reverseRecOn with
  | nil => exact ⟨by simp, .nil⟩
  | append_singleton entries e ih =>
    rw [List.foldl_append]
    exact (ih fun f hf => h f (by simp [hf])).assign (h e (by simp))

end Keys

end RecordFilter.Value
