import Mathlib
import RecordFilter.Proofs.Text.Split
import RecordFilter.Query.Path

namespace RecordFilter

namespace Value

variable {entries : List (Value × Value)} {key : String} {v : Value}

/-- The first entry of a mapping under a key holds the value. -/
def HoldsAt (entries : List (Value × Value)) (key : String) (v : Value) : Prop :=
  ∃ before after, entries = before ++ (.text key, v) :: after ∧ ∀ e ∈ before, e.1 ≠ .text key

theorem equal_text_iff (k : Value) (key : String) : k.equal (.text key) = true ↔ k = .text key := by
  cases k <;> simp [equal, equalLeaf, number?, moment?]

theorem lookup?_eq_some_iff : lookup? (.text key) entries = some v ↔ HoldsAt entries key v := by
  rw [lookup?, Option.map_eq_some_iff]
  simp only [List.find?_eq_some_iff_append, equal_text_iff]
  constructor
  · intro h
    obtain ⟨⟨k, w⟩, ⟨rfl, before, after, rfl, hbefore⟩, rfl⟩ := h
    refine ⟨before, after, rfl, fun e he heq => ?_⟩
    have hnot := hbefore e he
    rw [(equal_text_iff e.1 key).mpr heq] at hnot
    cases hnot
  · intro h
    obtain ⟨before, after, rfl, hbefore⟩ := h
    refine ⟨(.text key, v), ⟨rfl, before, after, rfl, fun e he => ?_⟩, rfl⟩
    rw [Bool.not_eq_true', Bool.eq_false_iff]
    exact fun hequal => hbefore e he ((equal_text_iff e.1 key).mp hequal)

theorem lookup?_eq_none_iff : lookup? (.text key) entries = none ↔ ∀ e ∈ entries, e.1 ≠ .text key := by
  rw [lookup?, Option.map_eq_none_iff, List.find?_eq_none]
  simp only [equal_text_iff]

theorem HoldsAt.mem (h : HoldsAt entries key v) : (.text key, v) ∈ entries := by
  obtain ⟨before, after, rfl, -⟩ := h
  simp

/-- No key has a dot in it, at any depth of mappings. -/
inductive Undotted : Value → Prop
  | map {entries : List (Value × Value)} (hkeys : ∀ key v, (.text key, v) ∈ entries → '.' ∉ key.toList)
      (hvalues : ∀ e ∈ entries, Undotted e.2) : Undotted (.map entries)
  | leaf {v : Value} (h : ∀ entries, v ≠ .map entries) : Undotted v

end Value

namespace Path

open Value (HoldsAt Undotted lookup?_eq_some_iff lookup?_eq_none_iff)

variable {r : Record} {v w : Value} {path : String} {keys segments : List String}

/-- Keys lead from a value to another one, each through the mapping that is reached by then. -/
inductive Leads : Value → List String → Value → Prop
  | here (v : Value) : Leads v [] v
  | down {entries : List (Value × Value)} {key : String} {child v : Value} {keys : List String}
      (hchild : HoldsAt entries key child) (hrest : Leads child keys v) : Leads (.map entries) (key :: keys) v

theorem follow_eq_some_iff : follow v keys = some w ↔ Leads v keys w := by
  constructor
  · intro h
    induction keys generalizing v with
    | nil =>
      obtain rfl := Option.some.inj h
      exact .here v
    | cons key keys ih =>
      cases v with
      | map entries =>
        obtain ⟨child, hchild, hrest⟩ := Option.bind_eq_some_iff.mp h
        exact .down (lookup?_eq_some_iff.mp hchild) (ih hrest)
      | _ => cases h
  · intro h
    induction h with
    | here v => rfl
    | down hchild _ ih => exact Option.bind_eq_some_iff.mpr ⟨_, lookup?_eq_some_iff.mpr hchild, ih⟩

/-- Following more keys is going on from where the first ones lead. -/
theorem follow_append (v : Value) (keys more : List String) :
    follow v (keys ++ more) = (follow v keys).bind (follow · more) := by
  induction keys generalizing v with
  | nil => rfl
  | cons key keys ih =>
    cases v with
    | map entries =>
      change (Value.lookup? (.text key) entries).bind (follow · (keys ++ more)) =
        ((Value.lookup? (.text key) entries).bind (follow · keys)).bind (follow · more)
      rw [Option.bind_assoc]
      congr 1
      funext child
      exact ih child
    | _ => rfl

theorem Leads.undotted (h : Leads v keys w) (hv : v.Undotted) : w.Undotted := by
  induction h with
  | here => exact hv
  | down hchild _ ih =>
    cases hv with
    | map _ hvalues => exact ih (hvalues _ hchild.mem)
    | leaf hnot => exact absurd rfl (hnot _)

/-- The texts between the dots of a path. -/
structure Segments (path : String) (segments : List String) : Prop where
  ne_nil : segments ≠ []
  undotted : ∀ segment ∈ segments, '.' ∉ segment.toList
  joined : Text.join "." segments = path

theorem segments_iff : Segments path segments ↔ segments = Text.pieces '.' path := by
  constructor
  · intro h
    obtain ⟨hne, hundotted, rfl⟩ := h
    have hwhole : ∀ segment ∈ segments, Text.pieces '.' segment = [segment] :=
      fun segment h => Text.pieces_of_not_mem '.' segment (hundotted segment h)
    rw [Text.pieces_join_of_toList (by rfl) hne, List.flatMap_congr hwhole, List.flatMap_singleton']
  · intro heq
    subst heq
    exact ⟨Text.pieces_ne_nil '.' path, fun segment => Text.not_mem_of_mem_pieces, Text.join_pieces (by rfl) path⟩

theorem resolve_of_holdsAt (h : HoldsAt r path v) : resolve r path = some v := by
  rw [resolve, lookup?_eq_some_iff.mpr h]

theorem resolve_of_absent (h : ∀ e ∈ r, e.1 ≠ .text path) :
    resolve r path = follow (.map r) (Text.pieces '.' path) := by
  rw [resolve, lookup?_eq_none_iff.mpr h]

/-- Without dots in the keys, the whole path is a key only when it has no dots, and then it is its own segment. -/
theorem resolve_of_undotted (h : (Value.map r).Undotted) (path : String) :
    resolve r path = follow (.map r) (Text.pieces '.' path) := by
  cases hflat : Value.lookup? (.text path) r with
  | none => exact resolve_of_absent (lookup?_eq_none_iff.mp hflat)
  | some v =>
    have hholds := lookup?_eq_some_iff.mp hflat
    have hplain : '.' ∉ path.toList := by
      cases h with
      | map hkeys _ => exact hkeys path v hholds.mem
      | leaf hnot => exact absurd rfl (hnot r)
    rw [resolve_of_holdsAt hholds, Text.pieces_of_not_mem '.' path hplain, follow, hflat]
    rfl

theorem follow_eq_none_of_leaf (h : ∀ entries, v ≠ .map entries) (hkeys : keys ≠ []) : follow v keys = none := by
  obtain ⟨key, others, rfl⟩ := List.exists_cons_of_ne_nil hkeys
  cases v with
  | map entries => exact absurd rfl (h entries)
  | _ => rfl

theorem resolve_join (h : (Value.map r).Undotted) (p q : String) :
    resolve r (p ++ "." ++ q) = (resolve r p).bind (follow · (Text.pieces '.' q)) := by
  have hpieces : Text.pieces '.' (p ++ "." ++ q) = Text.pieces '.' p ++ Text.pieces '.' q :=
    Text.pieces_append '.' p q
  rw [resolve_of_undotted h, resolve_of_undotted h p, hpieces, follow_append]

/-- Without dots in the keys of a record, a path and one more behind it lead where the second one leads from the
mapping at the end of the first, and nowhere without such a mapping. In any record a key that is the whole path
comes first, whatever it holds; without such a key a value is found when the segments of the path are keys of one
mapping in another, the last one with this value. -/
theorem resolve_composes (r : Record) :
    ((Value.map r).Undotted → ∀ p q,
      (∀ d, resolve r p = some (.map d) → resolve r (p ++ "." ++ q) = resolve d q) ∧
      ((∀ d, resolve r p ≠ some (.map d)) → resolve r (p ++ "." ++ q) = none)) ∧
    (∀ path v, HoldsAt r path v → resolve r path = some v) ∧
    ∀ path, (∀ e ∈ r, e.1 ≠ .text path) →
      ∃ segments, Segments path segments ∧ ∀ v, resolve r path = some v ↔ Leads (.map r) segments v := by
  refine ⟨fun h p q => ⟨fun d hd => ?_, fun hnone => ?_⟩, fun path v => resolve_of_holdsAt, fun path habsent => ?_⟩
  · have hleads : Leads (.map r) (Text.pieces '.' p) (.map d) := by
      rw [← follow_eq_some_iff, ← resolve_of_undotted h, hd]
    rw [resolve_join h, hd, resolve_of_undotted (hleads.undotted h), Option.bind_some]
  · rw [resolve_join h]
    cases hp : resolve r p with
    | none => rfl
    | some v =>
      have hleaf : ∀ entries, v ≠ .map entries := by
        intro entries heq
        subst heq
        exact hnone entries hp
      exact follow_eq_none_of_leaf hleaf (Text.pieces_ne_nil '.' q)
  · refine ⟨Text.pieces '.' path, segments_iff.mpr rfl, fun v => ?_⟩
    rw [resolve_of_absent habsent, follow_eq_some_iff]

/-- An empty key on the way, a value that is no mapping, and a key with a dot that holds nothing. -/
theorem resolve_composes_empty :
    let sizes : Record := [(.text "b", .int 1)]
    let inner : Record := [(.text "", .map sizes), (.text "c", .list [])]
    let r : Record := [(.text "a", .map inner)]
    let s : Record := [(.text "a", .map sizes), (.text "a.b", .null)]
    (Value.map r).Undotted ∧ resolve r "a." = some (.map sizes) ∧ resolve r "a..b" = some (.int 1) ∧
    resolve r "a.c" = some (.list []) ∧ resolve r "a.c.b" = none ∧
    HoldsAt s "a.b" .null ∧ resolve s "a.b" = some .null ∧
    Leads (.map r) ["a", "", "b"] (.int 1) := by
  intro sizes inner r s
  have hleaf : ∀ v ∈ [Value.int 1, .list []], v.Undotted := by
    intro v hv
    refine .leaf fun entries heq => ?_
    simp [heq] at hv
  have hsizes : (Value.map sizes).Undotted := by
    refine .map (fun key v hmem => ?_) (List.forall_mem_singleton.mpr (hleaf _ (by simp)))
    simp_all [sizes]
  have hinner : (Value.map inner).Undotted := by
    refine .map (fun key v hmem => ?_) (List.forall_mem_cons.mpr ⟨hsizes, ?_⟩)
    · simp only [inner, List.mem_cons, List.not_mem_nil, or_false, Prod.mk.injEq, Value.text.injEq] at hmem
      rcases hmem with ⟨rfl, -⟩ | ⟨rfl, -⟩ <;> decide
    · exact List.forall_mem_singleton.mpr (hleaf _ (by simp))
  have hr : (Value.map r).Undotted := by
    refine .map (fun key v hmem => ?_) (List.forall_mem_singleton.mpr hinner)
    simp_all [r]
  have hmapping : resolve r "a." = some (.map sizes) := by cbv
  have hlist : resolve r "a.c" = some (.list []) := by cbv
  obtain ⟨hjoin, -, hsegments⟩ := resolve_composes r
  obtain ⟨-, hflat, -⟩ := resolve_composes s
  have hb : resolve r "a..b" = some (.int 1) := by
    have hinside : resolve sizes "b" = some (.int 1) := by cbv
    exact ((hjoin hr "a." "b").1 sizes hmapping).trans hinside
  have hnull : HoldsAt s "a.b" .null := ⟨[(.text "a", .map sizes)], [], rfl, by simp⟩
  refine ⟨hr, hmapping, hb, hlist, (hjoin hr "a.c" "b").2 (by simp [hlist]), hnull, hflat _ _ hnull, ?_⟩
  obtain ⟨segments, hcut, hleads⟩ := hsegments "a..b" (by simp [r])
  have hparts : segments = ["a", "", "b"] := (segments_iff.mp hcut).trans (by decide)
  rw [← hparts]
  exact (hleads _).mp hb

/-- A key with a dot deeper down is found from its own mapping alone. -/
example : resolve [(.text "b.c", .int 1)] "b.c" = some (.int 1) ∧
    resolve [(.text "a", .map [(.text "b.c", .int 1)])] "a.b.c" = none := by
  constructor <;> cbv

end Path

end RecordFilter
