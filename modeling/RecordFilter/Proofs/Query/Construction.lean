import Mathlib.Logic.Function.Basic
import RecordFilter.Proofs.Query.Backend

namespace RecordFilter

open Fallible

/-- What is asked of one property. -/
structure Comparison where
  operator : Operator
  property : String
  value : Value

/-- A composed predicate by the constructors that make it. -/
inductive Tree
  | always
  | leaf (c : Comparison)
  | any (parts : List Tree)
  | all (parts : List Tree)

/-- A query context that writes down what it is asked for. -/
def Backend.recording (supports : Operator → Bool) : Backend Tree :=
  ⟨supports, fun o property v => .leaf ⟨o, property, v⟩, .all, .any, .always⟩

/-- A query context whose constructors act, whatever `m` lets them do, and give a predicate. -/
structure Maker (m : Type → Type) (P : Type) where
  supports : Operator → Bool
  compare : Operator → String → Value → m P
  all : List P → m P
  any : List P → m P
  always : m P

namespace Maker

section Passes

variable {m : Type → Type} [Monad m] {P : Type}

/-- An outcome that no constructor has a part in. -/
def known {α : Type} (r : Except Fault α) : ExceptT Fault m α := ExceptT.mk (pure r)

def single (combine : List P → m P) : List P → m P
  | [p] => pure p
  | ps => combine ps

/-- The predicate of an entry. The match value is read again before each comparison. -/
def ofEntry (k : Maker m P) (table : RestrictionTable) (registry : TypeRegistry) (e : Entry) :
    ExceptT Fault m P := do
  let o ← known (Backend.liftFilter ((Backend.recording k.supports).operatorOf table e.criterion.kind))
  let comparisons ← e.criterion.names.mapM fun name => do
    let value ← known (Coercion.matchValue e.criterion.type e.matchText name o registry)
    ExceptT.lift (k.compare o name value)
  ExceptT.lift (single k.any comparisons)

def ofEntries (k : Maker m P) (table : RestrictionTable) (registry : TypeRegistry) :
    List Entry → ExceptT Fault m P
  | [] => ExceptT.lift k.always
  | es => do ExceptT.lift (single k.all (← es.mapM (k.ofEntry table registry)))

/-- A query context of which nothing but the predicates is seen. -/
def ofBackend (b : Backend P) : Maker m P where
  supports := b.supports
  compare o property v := pure (b.compare o property v)
  all ps := pure (b.all ps)
  any ps := pure (b.any ps)
  always := pure b.always

end Passes

end Maker

namespace Tree

variable {m : Type → Type} [Monad m] {P : Type}

mutual

/-- Has a context make the tree: its parts from left to right, then the whole. -/
def make (k : Maker m P) : Tree → m P
  | .always => k.always
  | .leaf c => k.compare c.operator c.property c.value
  | .any parts => makeAmong k parts >>= k.any
  | .all parts => makeAmong k parts >>= k.all

def makeAmong (k : Maker m P) : List Tree → m (List P)
  | [] => pure []
  | t :: ts => do
    let p ← t.make k
    let ps ← makeAmong k ts
    return p :: ps

end

/-- The tree with the constructors of a backend in place of its own. -/
def build (b : Backend P) (t : Tree) : P := (t.make (m := Id) (.ofBackend b)).run

/-- Comparisons of which one has to hold. -/
def alternatives : List Comparison → Tree
  | [c] => .leaf c
  | cs => .any (cs.map .leaf)

/-- Trees that have to hold together. -/
def joined : List Tree → Tree
  | [] => .always
  | [t] => t
  | ts => .all ts

end Tree

/-- What an entry comes to: by the operator of its kind, a comparison of each property in turn with the
match value that is read for it. -/
def Entry.Asks (table : RestrictionTable) (registry : TypeRegistry) (e : Entry) (row : List Comparison) : Prop :=
  ∃ o, table.resolve e.criterion.kind = .ok o ∧ row.map (·.property) = e.criterion.names ∧
    ∀ c ∈ row, c.operator = o ∧
      Coercion.matchValue e.criterion.type e.matchText c.property o registry = .ok c.value

namespace Maker

variable {m : Type → Type} [Monad m] [LawfulMonad m] {P α β : Type} {k : Maker m P} {table : RestrictionTable}
  {registry : TypeRegistry} {e : Entry}

theorem known_error_bind {f : Fault} {g : α → ExceptT Fault m β} :
    known (.error f) >>= g = known (.error f) := by
  apply ExceptT.ext
  simp [known, ExceptT.run_bind]

theorem known_ok_bind {a : α} {g : α → ExceptT Fault m β} : known (.ok a) >>= g = g a :=
  pure_bind a g

theorem known_bind (r : Except Fault α) (g : α → Except Fault β) :
    (known (r >>= g) : ExceptT Fault m β) = known r >>= fun a => known (g a) := by
  cases r with
  | error f =>
    rw [known_error_bind]
    rfl
  | ok a =>
    rw [known_ok_bind]
    rfl

theorem known_map (r : Except Fault α) (g : α → β) :
    (known (r.map g) : ExceptT Fault m β) = known r >>= fun a => pure (g a) := by
  cases r with
  | error f =>
    rw [known_error_bind]
    rfl
  | ok a =>
    rw [known_ok_bind]
    rfl

theorem mapM_congr {f g : α → ExceptT Fault m β} {xs : List α} (h : ∀ x ∈ xs, f x = g x) :
    xs.mapM f = xs.mapM g := by
  induction xs with
  | nil => rfl
  | cons x xs ih =>
    obtain ⟨hx, hxs⟩ := List.forall_mem_cons.mp h
    rw [List.mapM_cons, List.mapM_cons, hx, ih hxs]

/-- Steps that only act are one action. -/
theorem mapM_lift (g : α → m β) (xs : List α) :
    xs.mapM (fun x => (ExceptT.lift (g x) : ExceptT Fault m β)) = ExceptT.lift (xs.mapM g) := by
  induction xs with
  | nil =>
    apply ExceptT.ext
    simp
  | cons x xs ih =>
    apply ExceptT.ext
    simp [ih, Except.map]

theorem mapM_known (f : α → Except Fault β) (xs : List α) :
    xs.mapM (fun x => (known (f x) : ExceptT Fault m β)) = known (xs.mapM f) := by
  induction xs with
  | nil => rfl
  | cons x xs ih =>
    rw [List.mapM_cons, List.mapM_cons, ih]
    cases f x with
    | error e => exact known_error_bind
    | ok b =>
      rw [known_ok_bind]
      cases xs.mapM f with
      | error e => exact known_error_bind
      | ok bs => exact known_ok_bind

theorem makeAmong_eq (ts : List Tree) : Tree.makeAmong k ts = ts.mapM (Tree.make k) := by
  induction ts with
  | nil => rw [Tree.makeAmong, List.mapM_nil]
  | cons t ts ih => rw [Tree.makeAmong, List.mapM_cons, ih]

theorem make_alternatives (row : List Comparison) :
    (Tree.alternatives row).make k =
      row.mapM (fun c => k.compare c.operator c.property c.value) >>= single k.any := by
  have hleaves : ∀ cs : List Comparison, Tree.makeAmong k (cs.map .leaf) =
      cs.mapM (fun c => k.compare c.operator c.property c.value) := by
    intro cs
    rw [makeAmong_eq, List.mapM_map]
    rfl
  match row with
  | [] => simp [Tree.alternatives, Tree.make, Tree.makeAmong, single]
  | [c] => simp [Tree.alternatives, Tree.make, single]
  | c :: c' :: cs =>
    rw [Tree.alternatives, Tree.make, hleaves]
    · simp [single]
    · simp

theorem make_joined (ts : List Tree) (hts : ts ≠ []) :
    (Tree.joined ts).make k = ts.mapM (Tree.make k) >>= single k.all := by
  match ts with
  | [] => exact absurd rfl hts
  | [t] => simp [Tree.joined, single]
  | t :: t' :: ts =>
    rw [Tree.joined, Tree.make, makeAmong_eq]
    · simp [single]
    · simp
    · simp

/-- A context is asked for the comparisons of an entry, and for their alternative where there are several. -/
theorem ofEntry_of_asks {row : List Comparison} (h : e.Asks table registry row)
    (hk : ∀ o, table.resolve e.criterion.kind = .ok o → k.supports o = true) :
    k.ofEntry table registry e = ExceptT.lift ((Tree.alternatives row).make k) := by
  obtain ⟨o, ho, hnames, hrow⟩ := h
  have hop : (Backend.recording k.supports).operatorOf table e.criterion.kind = .ok o :=
    Backend.operatorOf_eq_ok_iff.mpr ⟨ho, hk o ho⟩
  have hstep : ∀ c ∈ row, (do
      let value ← known (Coercion.matchValue e.criterion.type e.matchText c.property o registry)
      ExceptT.lift (k.compare o c.property value)) =
        (ExceptT.lift (k.compare c.operator c.property c.value) : ExceptT Fault m P) := by
    intro c hc
    obtain ⟨rfl, hv⟩ := hrow c hc
    rw [hv, known_ok_bind]
  have hrun : row.mapM ((fun name => do
      let value ← known (Coercion.matchValue e.criterion.type e.matchText name o registry)
      ExceptT.lift (k.compare o name value)) ∘ (·.property)) =
        (ExceptT.lift (row.mapM fun c => k.compare c.operator c.property c.value) : ExceptT Fault m (List P)) := by
    rw [← mapM_lift]
    exact mapM_congr hstep
  rw [ofEntry, hop]
  change known (.ok o) >>= _ = _
  rw [known_ok_bind, ← hnames, List.mapM_map, hrun, make_alternatives]
  exact (ExceptT.lift_bind _ _).symm

/-- The trees of all entries in turn, then what joins them where there are several. -/
theorem ofEntries_of_asks {es : List Entry} {rows : List (List Comparison)}
    (h : List.Forall₂ (Entry.Asks table registry) es rows)
    (hk : ∀ e ∈ es, ∀ o, table.resolve e.criterion.kind = .ok o → k.supports o = true) :
    k.ofEntries table registry es = ExceptT.lift ((Tree.joined (rows.map .alternatives)).make k) := by
  have hrun : es.mapM (k.ofEntry table registry) =
      ExceptT.lift ((rows.map Tree.alternatives).mapM (Tree.make k)) := by
    rw [← mapM_lift, List.mapM_map]
    induction h with
    | nil => rfl
    | cons he _ ih =>
      obtain ⟨hk, hks⟩ := List.forall_mem_cons.mp hk
      rw [List.mapM_cons, List.mapM_cons, ofEntry_of_asks he hk, ih hks]
      rfl
  cases h with
  | nil => rfl
  | cons he hes =>
    rw [make_joined _ (by simp)]
    rw [ofEntries, hrun]
    · exact (ExceptT.lift_bind _ _).symm
    · simp

/-- Where an entry fails, a context has not been asked for anything: what fails for one property fails for
the first. -/
theorem ofEntry_of_error {Q : Type} {b : Backend Q} {f : Fault} (hk : k.supports = b.supports)
    (h : b.ofEntry table registry e = .error f) : k.ofEntry table registry e = known (.error f) := by
  have hop : (Backend.recording k.supports).operatorOf table e.criterion.kind =
      b.operatorOf table e.criterion.kind := by
    rw [hk]
    rfl
  rw [ofEntry, hop]
  cases ho : b.operatorOf table e.criterion.kind with
  | error x =>
    rw [Backend.ofEntry, ho] at h
    cases h
    exact known_error_bind
  | ok o =>
    change known (.ok o) >>= _ = _
    rw [known_ok_bind]
    cases hn : e.criterion.names with
    | nil =>
      rw [Backend.ofEntry_eq, ho, hn] at h
      cases h
    | cons name names =>
      have hfirst := (Backend.ofEntry_eq_error_iff_first ho hn).mp h
      rw [List.mapM_cons, hfirst, known_error_bind, known_error_bind, known_error_bind]

omit [LawfulMonad m] in
theorem single_ofBackend (combine : List P → P) (ps : List P) :
    single (m := m) (fun ps => pure (combine ps)) ps = pure (Backend.single combine ps) := by
  match ps with
  | [] => rfl
  | [p] => rfl
  | _ :: _ :: _ => rfl

theorem ofEntry_ofBackend (b : Backend P) (e : Entry) :
    (ofBackend b : Maker m P).ofEntry table registry e = known (b.ofEntry table registry e) := by
  have hstep : ∀ o, (fun name => do
      let value ← known (Coercion.matchValue e.criterion.type e.matchText name o registry)
      ExceptT.lift ((ofBackend b : Maker m P).compare o name value)) =
        fun name => (known (b.comparisonOf registry e o name) : ExceptT Fault m P) := by
    intro o
    funext name
    rw [Backend.comparisonOf]
    cases Coercion.matchValue e.criterion.type e.matchText name o registry with
    | error f => exact known_error_bind
    | ok v =>
      rw [known_ok_bind]
      exact ExceptT.lift_pure _
  rw [ofEntry, Backend.ofEntry_eq, known_bind]
  apply bind_congr
  intro o
  rw [hstep, mapM_known, known_map]
  apply bind_congr
  intro ps
  rw [ofBackend, single_ofBackend]
  exact ExceptT.lift_pure _

theorem ofEntries_ofBackend (b : Backend P) (es : List Entry) :
    (ofBackend b : Maker m P).ofEntries table registry es = known (b.ofEntries table registry es) := by
  have hentries : es.mapM ((ofBackend b : Maker m P).ofEntry table registry) =
      known (es.mapM (b.ofEntry table registry)) := by
    rw [← mapM_known]
    exact mapM_congr fun e _ => ofEntry_ofBackend b e
  cases es with
  | nil => exact ExceptT.lift_pure _
  | cons e es =>
    rw [ofEntries, Backend.ofEntries, hentries, known_map]
    · apply bind_congr
      intro ps
      rw [ofBackend, single_ofBackend]
      exact ExceptT.lift_pure _
    · simp
    · simp

end Maker

end RecordFilter
