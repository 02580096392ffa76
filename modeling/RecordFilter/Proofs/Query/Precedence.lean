import Mathlib
import RecordFilter.Proofs.Query.Construction
import RecordFilter.Proofs.Query.Refusal
import RecordFilter.Proofs.Query.Session
import RecordFilter.Proofs.Text.Split

namespace RecordFilter

open Fallible

namespace Coercion

/-- The first of the texts that has no reading. -/
def FirstRefused (type : PropertyType) (texts : List String) (raw : String) : Prop :=
  ∃ front back, texts = front ++ raw :: back ∧ (∀ t ∈ front, ∃ v, coerce type t = .ok v) ∧
    ∀ v, coerce type raw ≠ .ok v

/-- Coercing the texts ends in no fault but the refusal of a text. -/
def RefusesOnly (type : PropertyType) (texts : List String) : Prop :=
  ∀ t ∈ texts, ∀ f, coerce type t = .error f → ∃ T raw p, f = .filter (.typeCoercion T raw p)

variable {type : PropertyType} {registry : TypeRegistry} {o : Operator} {text name : String} {f : Fault}

theorem texts_ne_nil (o : Operator) (text : String) : o.texts text ≠ [] := by
  unfold Operator.texts
  split_ifs
  · exact Text.pieces_ne_nil ',' text
  · simp

theorem mapM_coerceAs_of_not_contains (h : registry.contains (String.singleton type.code) = false) {g : Fault} :
    (o.texts text).mapM (coerceAs registry (.known type)) = .error g ↔
      g = .filter (.unknownTypeCode (String.singleton type.code) none) := by
  have hall : ∀ t, coerceAs registry (.known type) t =
      .error (.filter (.unknownTypeCode (String.singleton type.code) none)) := by
    intro t
    rw [coerceAs]
    exact if_neg (by simp [TypeEntry.code, h])
  obtain ⟨t, ts, hts⟩ := List.exists_cons_of_ne_nil (texts_ne_nil o text)
  rw [hts, mapM_eq_error_iff, reaches_cons_iff]
  simp [hall, eq_comm]

theorem mapM_coerce_eq_error_iff {texts : List String} {g : Fault} :
    texts.mapM (coerce type) = .error g ↔ ∃ raw, FirstRefused type texts raw ∧ coerce type raw = .error g := by
  rw [mapM_eq_error_iff, reaches_iff_append]
  constructor
  · intro hh
    obtain ⟨front, raw, back, rfl, hfront, hraw⟩ := hh
    exact ⟨raw, ⟨front, back, rfl, hfront, by simp [hraw]⟩, hraw⟩
  · intro hh
    obtain ⟨raw, ⟨front, back, rfl, hfront, -⟩, hraw⟩ := hh
    exact ⟨front, raw, back, rfl, hfront, hraw⟩

/-- Where some text has no reading, one is the first. -/
theorem exists_firstRefused_iff {texts : List String} :
    (∃ raw, FirstRefused type texts raw) ↔ ∃ t ∈ texts, ∀ v, coerce type t ≠ .ok v := by
  constructor
  · intro hh
    obtain ⟨raw, front, back, rfl, -, hraw⟩ := hh
    exact ⟨raw, by simp, hraw⟩
  · intro hh
    obtain ⟨t, ht, hrefused⟩ := hh
    cases hm : texts.mapM (coerce type) with
    | ok vs =>
      obtain ⟨v, hv⟩ := exists_of_mapM hm ht
      exact absurd hv (hrefused v)
    | error g =>
      obtain ⟨raw, hraw, -⟩ := mapM_coerce_eq_error_iff.mp hm
      exact ⟨raw, hraw⟩

end Coercion

namespace Backend

variable {P : Type} {b : Backend P} {table : RestrictionTable} {registry : TypeRegistry} {kind name text : String}
  {type : PropertyType} {names : List String} {o : Operator} {f : Fault}

/-- No operator, or one that the backend does not have. -/
def Unsupported (b : Backend P) (table : RestrictionTable) (kind : String) : Prop :=
  table.find? kind = none ∨ ∃ o, table.find? kind = some o ∧ b.supports o = false

theorem operatorOf_of_unsupported (h : b.Unsupported table kind) :
    b.operatorOf table kind = .error (.unsupportedRestriction kind) := by
  rw [operatorOf, RestrictionTable.resolve]
  rcases h with h | ⟨o, h, hs⟩
  · rw [h]
  · rw [h]
    simp [hs]

theorem operatorOf_of_supports (h : table.find? kind = some o) (hs : b.supports o = true) :
    b.operatorOf table kind = .ok o := by
  rw [operatorOf, RestrictionTable.resolve, h]
  exact if_pos hs

theorem unsupported_or_supports (b : Backend P) (table : RestrictionTable) (kind : String) :
    b.Unsupported table kind ∨ ∃ o, table.find? kind = some o ∧ b.supports o = true := by
  cases h : table.find? kind with
  | none => exact .inl (.inl h)
  | some o =>
    cases hs : b.supports o with
    | false => exact .inl (.inr ⟨o, h, hs⟩)
    | true => exact .inr ⟨o, rfl, hs⟩

section Entries

variable {e : Entry}

theorem ofEntry_of_unsupported (h : b.Unsupported table e.criterion.kind) :
    b.ofEntry table registry e = .error (.filter (.unsupportedRestriction e.criterion.kind)) := by
  rw [ofEntry, operatorOf_of_unsupported h]
  rfl

/-- Past its kind, an entry fails as the first of its texts, in the name of the first of its properties. -/
theorem ofEntry_eq_error_iff_exists (h : table.find? e.criterion.kind = some o) (hs : b.supports o = true)
    (hn : e.criterion.names = name :: names) :
    b.ofEntry table registry e = .error f ↔
      ∃ g, (o.texts e.matchText).mapM (Coercion.coerceAs registry (.known e.criterion.type)) = .error g ∧
        Coercion.forProperty name g = f := by
  rw [ofEntry_eq_error_iff_first (operatorOf_of_supports h hs) hn, Coercion.matchValue_eq_error_iff_exists]

/-- The first of the texts that has no reading decides, if the type is known. -/
theorem ofEntry_eq_error_iff_firstRefused (h : table.find? e.criterion.kind = some o) (hs : b.supports o = true)
    (hn : e.criterion.names = name :: names)
    (hc : registry.contains (String.singleton e.criterion.type.code) = true) :
    b.ofEntry table registry e = .error f ↔
      ∃ raw g, Coercion.FirstRefused e.criterion.type (o.texts e.matchText) raw ∧
        Coercion.coerce e.criterion.type raw = .error g ∧ Coercion.forProperty name g = f := by
  rw [ofEntry_eq_error_iff_exists h hs hn, Coercion.coerceAs_of_contains hc]
  simp only [Coercion.mapM_coerce_eq_error_iff]
  grind

theorem ofEntry_of_unknown (h : table.find? e.criterion.kind = some o) (hs : b.supports o = true)
    (hn : e.criterion.names = name :: names)
    (hc : registry.contains (String.singleton e.criterion.type.code) = false) :
    b.ofEntry table registry e =
      .error (.filter (.unknownTypeCode (String.singleton e.criterion.type.code) none)) := by
  rw [ofEntry_eq_error_iff_exists h hs hn]
  exact ⟨_, (Coercion.mapM_coerceAs_of_not_contains hc).mpr rfl, rfl⟩

/-- What an entry of a supported kind can fail with. -/
theorem ofEntry_eq_error_cases (h : table.find? e.criterion.kind = some o) (hs : b.supports o = true)
    (hn : e.criterion.names = name :: names) (hf : b.ofEntry table registry e = .error f) :
    (registry.contains (String.singleton e.criterion.type.code) = false ∧
        f = .filter (.unknownTypeCode (String.singleton e.criterion.type.code) none)) ∨
      registry.contains (String.singleton e.criterion.type.code) = true ∧
        ∃ raw, Coercion.FirstRefused e.criterion.type (o.texts e.matchText) raw ∧
          (f = .filter (.typeCoercion e.criterion.type.name raw (some name)) ∨ f.Escapes) := by
  cases hc : registry.contains (String.singleton e.criterion.type.code) with
  | false =>
    rw [ofEntry_of_unknown h hs hn hc] at hf
    exact .inl ⟨rfl, (Except.error.inj hf).symm⟩
  | true =>
    obtain ⟨raw, g, hraw, hg, rfl⟩ := (ofEntry_eq_error_iff_firstRefused h hs hn hc).mp hf
    refine .inr ⟨rfl, raw, hraw, ?_⟩
    rcases Coercion.coerce_eq_error_cases hg with rfl | hbreaks
    · exact .inl rfl
    · have hescapes : g.Escapes := hbreaks.escapes
      rw [(Coercion.forProperty_eq_iff hescapes).mpr rfl]
      exact .inr hescapes

theorem ofEntry_eq_unsupported_iff {k : String} (hn : e.criterion.names = name :: names) :
    b.ofEntry table registry e = .error (.filter (.unsupportedRestriction k)) ↔
      k = e.criterion.kind ∧ b.Unsupported table e.criterion.kind := by
  constructor
  · intro hf
    rcases b.unsupported_or_supports table e.criterion.kind with hu | ⟨o, h, hs⟩
    · rw [ofEntry_of_unsupported hu] at hf
      cases hf
      exact ⟨rfl, hu⟩
    · rcases ofEntry_eq_error_cases h hs hn hf with ⟨-, hunknown⟩ | ⟨-, raw, -, hcoercion | hescapes⟩
      · cases hunknown
      · cases hcoercion
      · exact absurd rfl (hescapes _)
  · intro hh
    obtain ⟨rfl, hu⟩ := hh
    exact ofEntry_of_unsupported hu

theorem ofEntry_eq_unknown_iff {code : String} {x : Option String} (h : table.find? e.criterion.kind = some o)
    (hs : b.supports o = true) (hn : e.criterion.names = name :: names) :
    b.ofEntry table registry e = .error (.filter (.unknownTypeCode code x)) ↔
      code = String.singleton e.criterion.type.code ∧ x = none ∧ registry.contains code = false := by
  constructor
  · intro hf
    rcases ofEntry_eq_error_cases h hs hn hf with ⟨hc, hunknown⟩ | ⟨-, raw, -, hcoercion | hescapes⟩
    · cases hunknown
      exact ⟨rfl, rfl, hc⟩
    · cases hcoercion
    · exact absurd rfl (hescapes _)
  · intro hh
    obtain ⟨rfl, rfl, hc⟩ := hh
    exact ofEntry_of_unknown h hs hn hc

/-- Where texts are refused in no other way, an entry fails as the first of them that has no reading. -/
theorem ofEntry_eq_coercion_iff {T raw : String} {p : Option String}
    (h : table.find? e.criterion.kind = some o) (hs : b.supports o = true)
    (hn : e.criterion.names = name :: names)
    (hc : registry.contains (String.singleton e.criterion.type.code) = true)
    (honly : Coercion.RefusesOnly e.criterion.type (o.texts e.matchText)) :
    b.ofEntry table registry e = .error (.filter (.typeCoercion T raw p)) ↔
      T = e.criterion.type.name ∧ p = some name ∧
        Coercion.FirstRefused e.criterion.type (o.texts e.matchText) raw := by
  constructor
  · intro hf
    rcases ofEntry_eq_error_cases h hs hn hf with ⟨-, hunknown⟩ | ⟨-, raw', hraw, hcoercion | hescapes⟩
    · cases hunknown
    · cases hcoercion
      exact ⟨rfl, rfl, hraw⟩
    · exact absurd rfl (hescapes _)
  · intro hh
    obtain ⟨rfl, rfl, hraw⟩ := hh
    have hmem : raw ∈ o.texts e.matchText := by
      obtain ⟨front, back, hsplit, -⟩ := hraw
      simp [hsplit]
    have hrefused : Coercion.coerce e.criterion.type raw = .error (Coercion.refused e.criterion.type raw) := by
      cases hr : Coercion.coerce e.criterion.type raw with
      | ok v =>
        obtain ⟨front, back, -, -, hnone⟩ := hraw
        exact absurd hr (hnone v)
      | error g =>
        rcases Coercion.coerce_eq_error_cases hr with rfl | hbreaks
        · rfl
        · obtain ⟨T, raw', p, rfl⟩ := honly raw hmem g hr
          exact absurd rfl (hbreaks.escapes _)
    rw [ofEntry_eq_error_iff_firstRefused h hs hn hc]
    exact ⟨raw, _, hraw, hrefused, rfl⟩

end Entries

end Backend

namespace Session

variable {contexts : List Context} {bs : List Binding} {i : Nat}

theorem raised_finish_iff {inner : Option (List Report)} {outcome : Except Fault Answer} {f : Fault} :
    (finish bs inner outcome).raised = some f ↔ outcome = .error f := by
  cases outcome with
  | error g => simp [finish]
  | ok a => simp [finish]

/-- A pass on an idle context fails as its entries do, and leaves the context idle; a failing reset hides
what the entries come to. -/
theorem pass_of_idle {c : Context} {n : Nat} (table : RestrictionTable) (registry : TypeRegistry)
    (es : List Entry) (upset : Bool) (hc : contexts[i]? = some c) (hb : bs[i]? = some ⟨false, n⟩) :
    (pass contexts bs i table registry es upset).bindings[i]? = some ⟨false, n + 1⟩ ∧
      ∀ f, (pass contexts bs i table registry es upset).raised = some f ↔
        if c.failsToReset || upset then f = .cleanup else c.backend.ofEntries table registry es = .error f := by
  have he : enter contexts bs i = .ok (some (c, bs.set i ⟨true, n⟩)) :=
    enter_eq_opened_iff.mpr ⟨hc, n, hb, rfl⟩
  constructor
  · rw [grown_pass table registry es upset i, hb, opening, he]
    simp
  · intro f
    rw [pass, he]
    simp only [raised_finish_iff, closing, composeIn]
    split_ifs
    · simp [eq_comm]
    · exact map_eq_error

end Session

namespace Backend

open Coercion (FirstRefused RefusesOnly coerce forProperty)

section InOrder

variable {P : Type} (b : Backend P) (table : RestrictionTable) (types : TypeRegistry)

/-- An entry fails with the first of its texts that has no reading, in the name of one property. -/
structure RefusedByText (e : Entry) (name : String) (o : Operator) : Prop where
  fails : ∀ f, b.ofEntry table types e = .error f ↔
    ∃ raw g, FirstRefused e.criterion.type (o.texts e.matchText) raw ∧ coerce e.criterion.type raw = .error g ∧
      forProperty name g = f
  some_refused : RefusesOnly e.criterion.type (o.texts e.matchText) →
    ((∃ T raw p, b.ofEntry table types e = .error (.filter (.typeCoercion T raw p))) ↔
      ∃ t ∈ o.texts e.matchText, ∀ v, coerce e.criterion.type t ≠ .ok v)
  first_refused : RefusesOnly e.criterion.type (o.texts e.matchText) →
    ∀ T raw p, b.ofEntry table types e = .error (.filter (.typeCoercion T raw p)) ↔
      T = e.criterion.type.name ∧ p = some name ∧ FirstRefused e.criterion.type (o.texts e.matchText) raw

/-- An entry fails with a kind that is not supported before a type that is not known, and with that before a text
that has no reading. -/
structure RefusedInOrder (e : Entry) (name : String) : Prop where
  kind : ∀ k, b.ofEntry table types e = .error (.filter (.unsupportedRestriction k)) ↔
    k = e.criterion.kind ∧ b.Unsupported table e.criterion.kind
  type : ∀ o, table.find? e.criterion.kind = some o → b.supports o = true →
    ∀ code x, b.ofEntry table types e = .error (.filter (.unknownTypeCode code x)) ↔
      code = String.singleton e.criterion.type.code ∧ x = none ∧ types.contains code = false
  text : ∀ o, table.find? e.criterion.kind = some o → b.supports o = true →
    types.contains (String.singleton e.criterion.type.code) = true → b.RefusedByText table types e name o

/-- Before an entry fails no constructor is asked, whatever the constructors do beside building trees. -/
def FailsUnasked (e : Entry) : Prop :=
  ∀ (m : Type → Type) [Monad m] [LawfulMonad m],
    ((Maker.ofBackend b : Maker m P).ofEntry table types e).run = pure (b.ofEntry table types e) ∧
    ∀ f, b.ofEntry table types e = .error f → ∀ (Q : Type) (k : Maker m Q), k.supports = b.supports →
      (k.ofEntry table types e).run = pure (.error f)

/-- The first of the entries that fails fails so. -/
def FirstFails (es : List Entry) (f : Fault) : Prop :=
  Reaches (fun e => ∃ p, b.ofEntry table types e = .ok p) (b.ofEntry table types · = .error f) es

/-- A pass of entries in a context that was idle and had been reset some times leaves it idle, and ends as its first
entry that fails, or as the reset that does. -/
structure PassEnds (c : Context) (es : List Entry) (upset : Bool) (i n : Nat) (after : Session.Run) : Prop where
  idle : after.bindings[i]? = some ⟨false, n + 1⟩
  raised : (c.failsToReset || upset) = false →
    ∀ f, after.raised = some f ↔ c.backend.FirstFails table types es f
  hidden : (c.failsToReset || upset) = true → after.raised = some .cleanup

variable {b table types}

theorem refusedByText {e : Entry} {name : String} {names : List String} {o : Operator}
    (hn : e.criterion.names = name :: names) (h : table.find? e.criterion.kind = some o)
    (hs : b.supports o = true) (hc : types.contains (String.singleton e.criterion.type.code) = true) :
    b.RefusedByText table types e name o where
  fails _ := ofEntry_eq_error_iff_firstRefused h hs hn hc
  some_refused honly := by
    rw [← Coercion.exists_firstRefused_iff]
    simp [ofEntry_eq_coercion_iff h hs hn hc honly]
  first_refused honly _ _ _ := ofEntry_eq_coercion_iff h hs hn hc honly

theorem failsUnasked (e : Entry) : b.FailsUnasked table types e := by
  intro m _ _
  rw [Maker.ofEntry_ofBackend]
  refine ⟨rfl, fun f hf Q k hk => ?_⟩
  rw [Maker.ofEntry_of_error hk hf]
  rfl

theorem ofEntries_eq_error_iff_firstFails {es : List Entry} {f : Fault} :
    b.ofEntries table types es = .error f ↔ b.FirstFails table types es f := by
  rw [ofEntries_eq_error_iff, mapM_eq_error_iff, FirstFails]

theorem passEnds {contexts : List Context} {bs : List Binding} {i n : Nat} {c : Context}
    (es : List Entry) (upset : Bool) (hc : contexts[i]? = some c) (hb : bs[i]? = some ⟨false, n⟩) :
    PassEnds table types c es upset i n (Session.run contexts bs (.pass i table types es upset)) := by
  have hrun : Session.run contexts bs (.pass i table types es upset) =
      Session.pass contexts bs i table types es upset := by
    rw [Session.run]
  obtain ⟨hidle, hraised⟩ := Session.pass_of_idle table types es upset hc hb
  rw [hrun]
  refine ⟨hidle, fun hreset f => ?_, fun hreset => ?_⟩
  · rw [hraised f, hreset, ← ofEntries_eq_error_iff_firstFails]
    simp
  · rw [hraised, hreset]
    simp

end InOrder

/-- An entry is refused for its kind before its type and for its type before its first text without a reading, in the
name of the first of its properties and before a constructor is asked. A pass ends as its first entry that fails, and
leaves its context idle. -/
theorem refused_in_order {P : Type} (b : Backend P) (table : RestrictionTable) (types : TypeRegistry)
    (kind : String) (type : PropertyType) (name : String) (names : List String) (text : String) :
    let e : Entry := ⟨⟨kind, type, name :: names⟩, text⟩
    b.RefusedInOrder table types e name ∧ b.FailsUnasked table types e ∧
    (∀ es f, b.ofEntries table types es = .error f ↔ b.FirstFails table types es f) ∧
    ∀ contexts bs i c n es upset, contexts[i]? = some c → bs[i]? = some ⟨false, n⟩ →
      PassEnds table types c es upset i n (Session.run contexts bs (.pass i table types es upset)) := by
  intro e
  have horder : b.RefusedInOrder table types e name :=
    ⟨fun k => ofEntry_eq_unsupported_iff rfl, fun o h hs code x => ofEntry_eq_unknown_iff h hs rfl,
      fun o h hs hc => refusedByText rfl h hs hc⟩
  exact ⟨horder, failsUnasked e, fun es f => ofEntries_eq_error_iff_firstFails,
    fun contexts bs i c n es upset hc hb => passEnds es upset hc hb⟩

/-- Of four numbers the second and the last are none. A context that counts what it is asked for is not asked
at all, and in a pass the entry behind, of no kind, is not come to. -/
theorem refused_in_order_sizes :
    let e : Entry := ⟨⟨"IN", .integer, ["width", "height"]⟩, "3,x,4,y"⟩
    let refusal : Fault := .filter (.typeCoercion "INTEGER" "x" (some "width"))
    let counting : Maker (StateM Nat) Unit := ⟨fun _ => true, fun _ _ _ => modify (· + 1),
      fun _ => modify (· + 1), fun _ => modify (· + 1), modify (· + 1)⟩
    let after := Session.run [⟨memory, false⟩] [⟨false, 2⟩]
      (.pass 0 .standard .standard [⟨⟨"EQ", .string, ["name"]⟩, "box"⟩, e, ⟨⟨"NONE", .string, ["name"]⟩, ""⟩])
    RestrictionTable.standard.find? "IN" = some .isIn ∧
    TypeRegistry.standard.contains (String.singleton PropertyType.integer.code) = true ∧
    Operator.isIn.texts "3,x,4,y" = ["3", "x", "4", "y"] ∧
    memory.ofEntry .standard .standard e = .error refusal ∧
    (counting.ofEntry .standard .standard e).run.run 7 = (.error refusal, 7) ∧
    after.raised = some refusal ∧ after.bindings[0]? = some ⟨false, 3⟩ := by
  intro e refusal counting after
  have hkind : RestrictionTable.standard.find? "IN" = some .isIn := by rfl
  have htype : TypeRegistry.standard.contains (String.singleton PropertyType.integer.code) = true := by rfl
  have htexts : Operator.isIn.texts "3,x,4,y" = ["3", "x", "4", "y"] := by decide +kernel
  have h3 : coerce .integer "3" = .ok (.int 3) := by rfl
  have hx : coerce .integer "x" = .error (Coercion.refused .integer "x") := by rfl
  have h4 : coerce .integer "4" = .ok (.int 4) := by rfl
  have hy : coerce .integer "y" = .error (Coercion.refused .integer "y") := by rfl
  have honly : RefusesOnly .integer (Operator.isIn.texts "3,x,4,y") := by
    rw [htexts]
    unfold RefusesOnly
    simp only [List.mem_cons, List.not_mem_nil, or_false]
    rintro t (rfl | rfl | rfl | rfl) f hf
    · cases h3.symm.trans hf
    · cases hx.symm.trans hf
      exact ⟨_, _, _, rfl⟩
    · cases h4.symm.trans hf
    · cases hy.symm.trans hf
      exact ⟨_, _, _, rfl⟩
  have hfirst : FirstRefused .integer (Operator.isIn.texts "3,x,4,y") "x" := by
    refine ⟨["3"], ["4", "y"], htexts, ?_, ?_⟩
    · simp [h3]
    · simp [hx]
  obtain ⟨horder, hunasked, -, hsession⟩ := refused_in_order memory .standard .standard "IN" .integer "width"
    ["height"] "3,x,4,y"
  have hrefused := horder.text .isIn hkind rfl htype
  have he : memory.ofEntry .standard .standard e = .error refusal :=
    (hrefused.first_refused honly "INTEGER" "x" (some "width")).mpr ⟨rfl, rfl, hfirst⟩
  have hcount : (counting.ofEntry .standard .standard e).run = pure (.error refusal) :=
    (hunasked (StateM Nat)).2 refusal he Unit counting rfl
  have hends : PassEnds .standard .standard ⟨memory, false⟩ _ false 0 2 after :=
    hsession [⟨memory, false⟩] [⟨false, 2⟩] 0 ⟨memory, false⟩ 2
      [⟨⟨"EQ", .string, ["name"]⟩, "box"⟩, e, ⟨⟨"NONE", .string, ["name"]⟩, ""⟩] false rfl rfl
  have hraised : after.raised = some refusal := (hends.raised rfl refusal).mpr (.later ⟨_, rfl⟩ (.here he))
  refine ⟨hkind, htype, htexts, he, ?_, hraised, hends.idle⟩
  rw [hcount]
  rfl

/-- Where a context fails to reset, the session of a pass fails whatever its entries come to, and not as
they do. -/
theorem failing_reset_hides_outcome :
    let contexts : List Context := [⟨trees fun _ => true, true⟩]
    let good : Entry := ⟨⟨"EQ", .string, ["name"]⟩, "vincent"⟩
    let bad : Entry := ⟨⟨"EQ", .integer, ["age"]⟩, "x"⟩
    (trees fun _ => true).ofEntry .standard .standard good =
      .ok (.compare .equals "name" (.text "vincent")) ∧
    (Session.run contexts [Session.idle] (.pass 0 .standard .standard [good])).raised = some .cleanup ∧
    (trees fun _ => true).ofEntry .standard .standard bad =
      .error (.filter (.typeCoercion "INTEGER" "x" (some "age"))) ∧
    (Session.run contexts [Session.idle] (.pass 0 .standard .standard [bad])).raised = some .cleanup :=
  ⟨by rfl, by rfl, by rfl, by rfl⟩

end Backend

end RecordFilter
