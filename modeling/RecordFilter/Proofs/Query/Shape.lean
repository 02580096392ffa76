import Mathlib
import RecordFilter.Proofs.Query.Construction
import RecordFilter.Proofs.Query.Matching
import RecordFilter.Query.Session

namespace RecordFilter

open Fallible

namespace Tree

mutual

/-- The comparisons of a tree from left to right. -/
def leaves : Tree → List Comparison
  | .always => []
  | .leaf c => [c]
  | .any parts => leavesAmong parts
  | .all parts => leavesAmong parts

def leavesAmong : List Tree → List Comparison
  | [] => []
  | t :: ts => t.leaves ++ leavesAmong ts

end

mutual

/-- Whatever joins parts has two of them or more. -/
def Branches : Tree → Prop
  | .always => True
  | .leaf _ => True
  | .any parts => 2 ≤ parts.length ∧ BranchesAmong parts
  | .all parts => 2 ≤ parts.length ∧ BranchesAmong parts

def BranchesAmong : List Tree → Prop
  | [] => True
  | t :: ts => t.Branches ∧ BranchesAmong ts

end

variable {P : Type} {b : Backend P} {ts : List Tree} {row : List Comparison}

theorem leavesAmong_eq (ts : List Tree) : leavesAmong ts = ts.flatMap leaves := by
  induction ts with
  | nil => rfl
  | cons t ts ih => rw [leavesAmong, ih, List.flatMap_cons]

theorem branchesAmong_iff : BranchesAmong ts ↔ ∀ t ∈ ts, t.Branches := by
  induction ts with
  | nil => simp [BranchesAmong]
  | cons t ts ih => rw [BranchesAmong, ih, List.forall_mem_cons]

theorem leaves_alternatives (row : List Comparison) : (alternatives row).leaves = row := by
  have hleaves : ∀ cs : List Comparison, leavesAmong (cs.map .leaf) = cs := by
    intro cs
    rw [leavesAmong_eq, List.flatMap_map]
    exact List.flatMap_singleton' cs
  match row with
  | [] => rfl
  | [c] => rfl
  | c :: c' :: cs => exact hleaves (c :: c' :: cs)

theorem leaves_joined (ts : List Tree) : (joined ts).leaves = ts.flatMap leaves := by
  match ts with
  | [] => rfl
  | [t] => simp [joined]
  | t :: t' :: ts => exact leavesAmong_eq (t :: t' :: ts)

theorem branches_alternatives (h : row ≠ []) : (alternatives row).Branches := by
  match row with
  | [] => exact absurd rfl h
  | [c] => trivial
  | c :: c' :: cs =>
    refine ⟨by simp, branchesAmong_iff.mpr fun t ht => ?_⟩
    obtain ⟨d, -, rfl⟩ := List.mem_map.mp ht
    trivial

theorem branches_joined (h : ∀ t ∈ ts, t.Branches) : (joined ts).Branches := by
  match ts with
  | [] => trivial
  | [t] => exact h t (by simp)
  | t :: t' :: ts => exact ⟨by simp, branchesAmong_iff.mpr h⟩

theorem makeAmong_ofBackend (ts : List Tree) :
    makeAmong (m := Id) (.ofBackend b) ts = pure (ts.map (build b)) := by
  induction ts with
  | nil => rfl
  | cons t ts ih =>
    rw [makeAmong, ih]
    rfl

theorem build_any (ts : List Tree) : (any ts).build b = b.any (ts.map (build b)) := by
  rw [build, make, makeAmong_ofBackend]
  rfl

theorem build_all (ts : List Tree) : (all ts).build b = b.all (ts.map (build b)) := by
  rw [build, make, makeAmong_ofBackend]
  rfl

variable {supports : Operator → Bool}

mutual

/-- Written down, a tree is itself. -/
theorem build_recording (t : Tree) : t.build (.recording supports) = t := by
  match t with
  | .always => rfl
  | .leaf c => rfl
  | .any ts =>
    rw [build_any, map_build_recording ts]
    rfl
  | .all ts =>
    rw [build_all, map_build_recording ts]
    rfl

theorem map_build_recording (ts : List Tree) : ts.map (build (.recording supports)) = ts := by
  match ts with
  | [] => rfl
  | t :: ts => rw [List.map_cons, build_recording t, map_build_recording ts]

end

end Tree

namespace Backend

variable {P : Type} {b : Backend P} {table : RestrictionTable} {registry : TypeRegistry} {e : Entry}
  {es : List Entry} {p : P}

/-- An entry that is composed comes to comparisons, by an operator that the backend has. -/
theorem exists_asks_of_ofEntry (h : b.ofEntry table registry e = .ok p) :
    (∃ o, table.resolve e.criterion.kind = .ok o ∧ b.supports o = true) ∧
      ∃ row, e.Asks table registry row := by
  obtain ⟨o, ps, ho, hps, -⟩ := ofEntry_eq_ok_iff.mp h
  obtain ⟨hkind, hs⟩ := operatorOf_eq_ok_iff.mp ho
  refine ⟨⟨o, hkind, hs⟩, ?_⟩
  have hread : ∀ name ∈ e.criterion.names, ∃ v,
      Coercion.matchValue e.criterion.type e.matchText name o registry = .ok v := by
    intro name hname
    obtain ⟨q, hq⟩ := exists_of_mapM hps hname
    obtain ⟨v, hv, -⟩ := map_eq_ok.mp hq
    exact ⟨v, hv⟩
  choose! value hvalue using hread
  refine ⟨e.criterion.names.map fun name => ⟨o, name, value name⟩, o, hkind, ?_, ?_⟩
  · simp [Function.comp_def]
  · intro c hc
    obtain ⟨name, hname, rfl⟩ := List.mem_map.mp hc
    exact ⟨rfl, hvalue name hname⟩

/-- The comparisons of an entry are those of its typed match values, taken one at a time. -/
theorem ofValue_of_asks {row : List Comparison} {c : Comparison} (h : e.Asks table registry row) (hc : c ∈ row)
    (hs : b.supports c.operator = true) :
    b.ofValue table c.property c.value e.criterion.kind = .ok (b.compare c.operator c.property c.value) := by
  obtain ⟨o, ho, -, hrow⟩ := h
  obtain ⟨rfl, hv⟩ := hrow c hc
  have hkind : b.operatorOf table e.criterion.kind = .ok c.operator := operatorOf_eq_ok_iff.mpr ⟨ho, hs⟩
  have hread := Predicate.admits_of_matchValue hv
  cases hset : c.operator.takesSet with
  | false => exact ofValue_of_scalar hkind hset
  | true =>
    rw [if_pos hset] at hread
    obtain ⟨vs, hvs, -⟩ := hread
    rw [hvs]
    exact ofValue_of_list hkind

/-- Of a backend nothing but its predicates is seen, so what it makes of a tree is all that counts. -/
theorem ofEntry_of_asks {row : List Comparison} (h : e.Asks table registry row)
    (hb : ∀ o, table.resolve e.criterion.kind = .ok o → b.supports o = true) :
    b.ofEntry table registry e = .ok ((Tree.alternatives row).build b) := by
  have hmade := Maker.ofEntry_of_asks (m := Id) (k := .ofBackend b) h hb
  rw [Maker.ofEntry_ofBackend] at hmade
  exact hmade

theorem ofEntries_of_asks {rows : List (List Comparison)} (h : List.Forall₂ (Entry.Asks table registry) es rows)
    (hb : ∀ e ∈ es, ∀ o, table.resolve e.criterion.kind = .ok o → b.supports o = true) :
    b.ofEntries table registry es = .ok ((Tree.joined (rows.map .alternatives)).build b) := by
  have hmade := Maker.ofEntries_of_asks (m := Id) (k := .ofBackend b) h hb
  rw [Maker.ofEntries_ofBackend] at hmade
  exact hmade

/-- What entries come to one by one, when they are composed. -/
theorem exists_rows_of_ofEntries (h : b.ofEntries table registry es = .ok p) :
    (∀ e ∈ es, ∀ o, table.resolve e.criterion.kind = .ok o → b.supports o = true) ∧
      ∃ rows, List.Forall₂ (Entry.Asks table registry) es rows := by
  obtain ⟨ps, hps⟩ := exists_ofEntries_iff.mp ⟨p, h⟩
  have hentries : ∀ e ∈ es, ∃ q, b.ofEntry table registry e = .ok q := fun e he => exists_of_mapM hps he
  constructor
  · intro e he o ho
    obtain ⟨q, hq⟩ := hentries e he
    obtain ⟨⟨o', ho', hs⟩, -⟩ := exists_asks_of_ofEntry hq
    obtain rfl : o = o' := Except.ok.inj (ho.symm.trans ho')
    exact hs
  · have hrows : ∀ e ∈ es, ∃ row, e.Asks table registry row := by
      intro e he
      obtain ⟨q, hq⟩ := hentries e he
      exact (exists_asks_of_ofEntry hq).2
    choose! row hrow using hrows
    refine ⟨es.map row, ?_⟩
    rw [List.forall₂_map_right_iff, List.forall₂_same]
    exact hrow

theorem ne_nil_of_asks {rows : List (List Comparison)} (h : List.Forall₂ (Entry.Asks table registry) es rows)
    (hnames : ∀ e ∈ es, e.criterion.names ≠ []) : ∀ row ∈ rows, row ≠ [] := by
  induction h with
  | nil => simp
  | cons he _ ih =>
    obtain ⟨hne, hnes⟩ := List.forall_mem_cons.mp hnames
    obtain ⟨o, -, hrow, -⟩ := he
    refine List.forall_mem_cons.mpr ⟨?_, ih hnes⟩
    rintro rfl
    exact hne hrow.symm

/-- A composed predicate is made of the comparisons of its entries alone, in their order: of the one property
or the one entry as it is, of several joined once. Each comparison is the one of its typed match value. A
context whose constructors act is asked for this tree and nothing more, and in memory it stands as it was
written down. -/
theorem composed_shape {P : Type} (b : Backend P) (table : RestrictionTable) (types : TypeRegistry)
    (es : List Entry) (p : P) (h : b.ofEntries table types es = .ok p) :
    ∃ rows : List (List Comparison),
      List.Forall₂ (fun e row => e.Asks table types row ∧
        b.ofEntry table types e = .ok ((Tree.alternatives row).build b) ∧
        ∀ c ∈ row, b.ofValue table c.property c.value e.criterion.kind = .ok ((Tree.leaf c).build b)) es rows ∧
      let tree := Tree.joined (rows.map .alternatives)
      p = tree.build b ∧
      tree.leaves = rows.flatten ∧
      ((∀ e ∈ es, e.criterion.names ≠ []) → tree.Branches) ∧
      (Backend.recording b.supports).ofEntries table types es = .ok tree ∧
      Session.composeOn ⟨Backend.memory, false⟩ table types es = .ok (tree.build Backend.memory) ∧
      ∀ (m : Type → Type) [Monad m] [LawfulMonad m] (Q : Type) (k : Maker m Q), k.supports = b.supports →
        k.ofEntries table types es = ExceptT.lift (tree.make k) := by
  obtain ⟨hs, rows, hrows⟩ := exists_rows_of_ofEntries h
  refine ⟨rows, ?_, ?_, ?_, ?_, ?_, ?_, ?_⟩
  · have hrows' := (List.forall₂_and_left es rows).mpr ⟨hs, hrows⟩
    refine hrows'.imp fun e row hh => ?_
    obtain ⟨hse, hasks⟩ := hh
    refine ⟨hasks, ofEntry_of_asks hasks hse, fun c hc => ?_⟩
    obtain ⟨o, ho, -, hrow⟩ := id hasks
    obtain ⟨rfl, -⟩ := hrow c hc
    exact ofValue_of_asks hasks hc (hse _ ho)
  · have hb := ofEntries_of_asks hrows hs
    exact Except.ok.inj (h.symm.trans hb)
  · rw [Tree.leaves_joined, List.flatMap_map]
    simp only [Tree.leaves_alternatives]
    exact List.flatMap_id'
  · intro hnames
    apply Tree.branches_joined
    intro t ht
    obtain ⟨row, hrow, rfl⟩ := List.mem_map.mp ht
    exact Tree.branches_alternatives (ne_nil_of_asks hrows hnames row hrow)
  · have hrecorded := ofEntries_of_asks (b := recording b.supports) hrows hs
    rw [hrecorded, Tree.build_recording]
  · have hmemory := ofEntries_of_asks (b := memory) hrows fun e he o ho => rfl
    exact hmemory
  · intro m _ _ Q k hk
    exact Maker.ofEntries_of_asks hrows (by rwa [hk])

/-- Two properties outside of a set, and a name beside them. -/
theorem composed_shape_sizes :
    let sizes : Value := .list [.int 3, .int 4]
    let es : List Entry := [⟨⟨"NIN", .integer, ["width", "height"]⟩, "3,4"⟩, ⟨⟨"EQ", .string, ["name"]⟩, "box"⟩]
    let properties : Backend (List String) :=
      ⟨fun o => o.takesSet || o == .equals, fun _ property _ => [property], List.flatten, List.flatten, []⟩
    let tree : Tree := .all [.any [.leaf ⟨.notIn, "width", sizes⟩, .leaf ⟨.notIn, "height", sizes⟩],
      .leaf ⟨.equals, "name", .text "box"⟩]
    properties.ofEntries .standard .standard es = .ok ["width", "height", "name"] ∧
    (recording properties.supports).ofEntries .standard .standard es = .ok tree ∧ tree.Branches ∧
    properties.ofValue .standard "height" sizes "NIN" = .ok ["height"] ∧
    Session.composeOn ⟨memory, false⟩ .standard .standard es =
      .ok (.all [.any [.compare .notIn "width" sizes, .compare .notIn "height" sizes],
        .compare .equals "name" (.text "box")]) := by
  intro sizes es properties tree
  have hcomposed : properties.ofEntries .standard .standard es = .ok ["width", "height", "name"] := by rfl
  have hrecorded : (recording properties.supports).ofEntries .standard .standard es = .ok tree := by rfl
  have hnames : ∀ e ∈ es, e.criterion.names ≠ [] := by simp [es]
  obtain ⟨rows, hrows, -, -, hbranches, hwritten, hmemory, -⟩ :=
    composed_shape properties .standard .standard es _ hcomposed
  have htree : tree = Tree.joined (rows.map .alternatives) := Except.ok.inj (hrecorded.symm.trans hwritten)
  rw [← htree] at hbranches hmemory
  have htyped : properties.ofValue .standard "height" sizes "NIN" = .ok ["height"] := by
    obtain ⟨row, -, ⟨⟨o, ho, hproperties, hread⟩, -, htyped⟩, -⟩ := List.forall₂_cons_left_iff.mp hrows
    obtain rfl : Operator.notIn = o := Except.ok.inj ho
    have hmem : "height" ∈ row.map (·.property) := by simp [hproperties]
    obtain ⟨c, hc, hheight⟩ := List.mem_map.mp hmem
    obtain ⟨-, hv⟩ := hread c hc
    rw [hheight] at hv
    have hvalue : sizes = c.value := Except.ok.inj hv
    have hmade := htyped c hc
    rw [hheight, ← hvalue] at hmade
    rw [hmade]
    exact congrArg (fun property => Except.ok [property]) hheight
  exact ⟨hcomposed, hrecorded, hbranches hnames, htyped, hmemory⟩

end Backend

end RecordFilter
