import Mathlib
import RecordFilter.Query.Session

namespace RecordFilter.Session

mutual

/-- A step that opens and closes contexts in sessions alone. -/
def Step.isScoped : Step → Bool
  | .acquire _ | .release _ => false
  | .within _ body _ _ | .block body => areScoped body
  | .caught step => step.isScoped
  | .pass .. | .compose .. | .raise _ => true

def areScoped : List Step → Bool
  | [] => true
  | step :: rest => step.isScoped && areScoped rest

end

mutual

/-- The contexts that a step names, those of its inner steps included. -/
def Step.contexts : Step → List Nat
  | .acquire i | .release i | .pass i .. | .compose i _ => [i]
  | .within i body _ _ => i :: contextsAmong body
  | .block body => contextsAmong body
  | .caught step => step.contexts
  | .raise _ => []

def contextsAmong : List Step → List Nat
  | [] => []
  | step :: rest => step.contexts ++ contextsAmong rest

end

/-- One for the context of a session that opens, nothing for other contexts or without one. -/
def opening (contexts : List Context) (bs : List Binding) (i k : Nat) : Nat :=
  match enter contexts bs i with
  | .ok (some _) => if i = k then 1 else 0
  | _ => 0

mutual

/-- How many sessions on a context open during a step. -/
def openings (contexts : List Context) (bs : List Binding) (k : Nat) : Step → Nat
  | .pass i .. => opening contexts bs i k
  | .compose i pairs =>
    match parsePairs pairs with
    | .ok _ => opening contexts bs i k
    | .error _ => 0
  | .within i body _ _ =>
    match enter contexts bs i with
    | .ok (some (_, opened)) => opening contexts bs i k + openingsAmong contexts opened k body
    | _ => 0
  | .block body => openingsAmong contexts bs k body
  | .caught step => openings contexts bs k step
  | .acquire _ | .release _ | .raise _ => 0

def openingsAmong (contexts : List Context) (bs : List Binding) (k : Nat) : List Step → Nat
  | [] => 0
  | step :: rest =>
    openings contexts bs k step +
      match (run contexts bs step).raised with
      | some _ => 0
      | none => openingsAmong contexts (run contexts bs step).bindings k rest

end

mutual

/-- The bindings at every moment of a step: where it and its inner steps start and end, and where sessions
have opened. -/
def moments (contexts : List Context) (bs : List Binding) : Step → List (List Binding)
  | .within i body _ _ =>
    match enter contexts bs i with
    | .ok (some (_, opened)) => bs :: momentsAmong contexts opened body
    | _ => [bs]
  | .pass i .. =>
    match enter contexts bs i with
    | .ok (some (_, opened)) => [bs, opened]
    | _ => [bs]
  | .compose i pairs =>
    match parsePairs pairs, enter contexts bs i with
    | .ok _, .ok (some (_, opened)) => [bs, opened]
    | _, _ => [bs]
  | .block body => momentsAmong contexts bs body
  | .caught step => moments contexts bs step
  | .acquire _ | .release _ | .raise _ => [bs]

def momentsAmong (contexts : List Context) (bs : List Binding) : List Step → List (List Binding)
  | [] => [bs]
  | step :: rest =>
    moments contexts bs step ++
      match (run contexts bs step).raised with
      | some _ => [(run contexts bs step).bindings]
      | none => momentsAmong contexts (run contexts bs step).bindings rest

end

/-- The context serves a pass. -/
def IsActive (bs : List Binding) (i : Nat) : Prop := ∃ n, bs[i]? = some ⟨true, n⟩

/-- Every context is as busy as before and was reset so many times more. -/
def Grown (bs after : List Binding) (n : Nat → Nat) : Prop :=
  ∀ k, after[k]? = bs[k]?.map fun b : Binding => { b with resets := b.resets + n k }

variable {contexts : List Context} {bs : List Binding} {i : Nat}

namespace Grown

theorem refl (bs : List Binding) : Grown bs bs fun _ => 0 := by
  intro k
  simp

theorem trans {mid after : List Binding} {m n : Nat → Nat} (h : Grown bs mid m) (h' : Grown mid after n) :
    Grown bs after fun k => m k + n k := by
  intro k
  rw [h' k, h k, Option.map_map]
  simp [Function.comp_def, Nat.add_assoc]

theorem congr {after : List Binding} {m n : Nat → Nat} (h : Grown bs after m) (hmn : ∀ k, m k = n k) :
    Grown bs after n := by
  intro k
  rw [h k, hmn k]

end Grown

theorem enter_eq_opened_iff {c : Context} {opened : List Binding} :
    enter contexts bs i = .ok (some (c, opened)) ↔
      contexts[i]? = some c ∧ ∃ n, bs[i]? = some ⟨false, n⟩ ∧ opened = bs.set i ⟨true, n⟩ := by
  unfold enter
  cases hb : bs[i]? with
  | none => simp
  | some b =>
    obtain ⟨active, n⟩ := b
    cases hc : contexts[i]? with
    | none => simp
    | some c' => cases active <;> simp [acquire, setBinding, Except.map, eq_comm]

/-- A session keeps what its body keeps, and adds a reset of its own context. -/
theorem grown_leave {c : Context} {opened after : List Binding} {n : Nat → Nat}
    (he : enter contexts bs i = .ok (some (c, opened))) (h : Grown opened after n) :
    Grown bs (leave after i) fun k => opening contexts bs i k + n k := by
  obtain ⟨-, m, hb, rfl⟩ := enter_eq_opened_iff.mp he
  have hi : i < bs.length := (List.getElem?_eq_some_iff.mp hb).1
  have hat : after[i]? = some ⟨true, m + n i⟩ := by
    rw [h i, List.getElem?_set_self hi]
    rfl
  have hlen : i < after.length := (List.getElem?_eq_some_iff.mp hat).1
  have hopening : ∀ k, opening contexts bs i k = if i = k then 1 else 0 := by
    intro k
    rw [opening, he]
  intro k
  simp only [leave, hat, setBinding, release, hopening]
  rcases eq_or_ne i k with rfl | hk
  · rw [List.getElem?_set_self hlen, hb]
    simp
    omega
  · rw [List.getElem?_set_ne hk, h k, List.getElem?_set_ne hk]
    simp [hk]

/-- Where no session opens, nothing changes. -/
theorem opening_of_error {f : Fault} (he : enter contexts bs i = .error f) (k : Nat) :
    opening contexts bs i k = 0 := by
  rw [opening, he]

theorem opening_of_missing (he : enter contexts bs i = .ok none) (k : Nat) :
    opening contexts bs i k = 0 := by
  rw [opening, he]

theorem grown_pass (table : RestrictionTable) (registry : TypeRegistry) (entries : List Entry)
    (upset : Bool) :
    Grown bs (pass contexts bs i table registry entries upset).bindings (opening contexts bs i) := by
  unfold pass
  split
  · next he => exact (Grown.refl bs).congr fun k => (opening_of_error he k).symm
  · next he => exact (Grown.refl bs).congr fun k => (opening_of_missing he k).symm
  · next he => exact (grown_leave he (Grown.refl _)).congr fun k => Nat.add_zero _

mutual

theorem grown_run (bs : List Binding) (step : Step) (hs : step.isScoped = true) :
    Grown bs (run contexts bs step).bindings (openings contexts bs · step) := by
  match step with
  | .acquire _ => cases hs
  | .release _ => cases hs
  | .pass i table registry entries upset => exact grown_pass table registry entries upset
  | .compose i pairs =>
    simp only [run, openings]
    cases parsePairs pairs with
    | error f => exact Grown.refl bs
    | ok entries => exact grown_pass .standard .standard entries false
  | .within i body raises upset =>
    simp only [run, openings]
    match he : enter contexts bs i with
    | .error f => exact Grown.refl bs
    | .ok none => exact Grown.refl bs
    | .ok (some (c, opened)) => exact grown_leave he (grown_runAll opened body hs)
  | .block body => exact grown_runAll bs body hs
  | .raise f => exact Grown.refl bs
  | .caught step => exact grown_run bs step hs

theorem grown_runAll (bs : List Binding) (steps : List Step) (hs : areScoped steps = true) :
    Grown bs (runAll contexts bs steps).1 (openingsAmong contexts bs · steps) := by
  match steps with
  | [] => exact Grown.refl bs
  | step :: rest =>
    obtain ⟨hstep, hrest⟩ := Bool.and_eq_true_iff.mp hs
    have h := grown_run bs step hstep
    simp only [runAll, openingsAmong]
    cases (run contexts bs step).raised with
    | some f => exact h
    | none => exact h.trans (grown_runAll _ rest hrest)

end

section Naming

variable {k : Nat}

theorem opening_of_ne (h : i ≠ k) : opening contexts bs i k = 0 := by
  unfold opening
  split
  · exact if_neg h
  · rfl

mutual

theorem openings_of_not_mem (bs : List Binding) (step : Step) (hk : k ∉ step.contexts) :
    openings contexts bs k step = 0 := by
  match step with
  | .acquire _ => rfl
  | .release _ => rfl
  | .pass i .. => exact opening_of_ne (Ne.symm (List.ne_of_not_mem_cons hk))
  | .compose i pairs =>
    have hi : opening contexts bs i k = 0 := opening_of_ne (Ne.symm (List.ne_of_not_mem_cons hk))
    rw [openings]
    cases parsePairs pairs with
    | error f => rfl
    | ok entries => exact hi
  | .within i body _ _ =>
    obtain ⟨hi, hbody⟩ := not_or.mp (mt List.mem_cons.mpr hk)
    rw [openings]
    match enter contexts bs i with
    | .error f => rfl
    | .ok none => rfl
    | .ok (some (c, opened)) =>
      simp only
      rw [opening_of_ne (Ne.symm hi), openingsAmong_of_not_mem opened body hbody]
  | .block body => exact openingsAmong_of_not_mem bs body hk
  | .raise f => rfl
  | .caught step => exact openings_of_not_mem bs step hk

theorem openingsAmong_of_not_mem (bs : List Binding) (steps : List Step)
    (hk : k ∉ contextsAmong steps) : openingsAmong contexts bs k steps = 0 := by
  match steps with
  | [] => rfl
  | step :: rest =>
    obtain ⟨hstep, hrest⟩ := not_or.mp (mt List.mem_append.mpr hk)
    rw [openingsAmong, openings_of_not_mem bs step hstep]
    cases (run contexts bs step).raised with
    | some f => rfl
    | none => exact (Nat.zero_add _).trans (openingsAmong_of_not_mem _ rest hrest)

end

end Naming

theorem Grown.isActive {after : List Binding} {n : Nat → Nat} (h : Grown bs after n) (hi : IsActive bs i) :
    IsActive after i := by
  obtain ⟨m, hm⟩ := hi
  exact ⟨m + n i, by rw [h i, hm]; rfl⟩

/-- Opening a context makes it busy and leaves no other one idle. -/
theorem isActive_enter {j : Nat} {c : Context} {opened : List Binding}
    (he : enter contexts bs j = .ok (some (c, opened))) (hi : IsActive bs i ∨ j = i) :
    IsActive opened i := by
  obtain ⟨-, m, hb, rfl⟩ := enter_eq_opened_iff.mp he
  have hj : j < bs.length := (List.getElem?_eq_some_iff.mp hb).1
  rcases eq_or_ne j i with rfl | hne
  · exact ⟨m, List.getElem?_set_self hj⟩
  · obtain ⟨n, hn⟩ := hi.resolve_right hne
    exact ⟨n, (List.getElem?_set_ne hne).trans hn⟩

mutual

/-- A busy context is busy at every moment of a step. -/
theorem isActive_moments (bs : List Binding) (step : Step) (hs : step.isScoped = true)
    (hi : IsActive bs i) : ∀ s ∈ moments contexts bs step, IsActive s i := by
  match step with
  | .acquire _ => cases hs
  | .release _ => cases hs
  | .pass j .. =>
    rw [moments]
    match he : enter contexts bs j with
    | .error f => simpa using hi
    | .ok none => simpa using hi
    | .ok (some (c, opened)) => simpa using ⟨hi, isActive_enter he (.inl hi)⟩
  | .compose j pairs =>
    rw [moments]
    match parsePairs pairs, he : enter contexts bs j with
    | .error _, _ => simpa using hi
    | .ok _, .error f => simpa using hi
    | .ok _, .ok none => simpa using hi
    | .ok _, .ok (some (c, opened)) => simpa using ⟨hi, isActive_enter he (.inl hi)⟩
  | .within j body _ _ =>
    rw [moments]
    match he : enter contexts bs j with
    | .error f => simpa using hi
    | .ok none => simpa using hi
    | .ok (some (c, opened)) =>
      rw [List.forall_mem_cons]
      exact ⟨hi, isActive_momentsAmong opened body hs (isActive_enter he (.inl hi))⟩
  | .block body => exact isActive_momentsAmong bs body hs hi
  | .raise f => simpa [moments] using hi
  | .caught step => exact isActive_moments bs step hs hi

theorem isActive_momentsAmong (bs : List Binding) (steps : List Step) (hs : areScoped steps = true)
    (hi : IsActive bs i) : ∀ s ∈ momentsAmong contexts bs steps, IsActive s i := by
  match steps with
  | [] => simpa [momentsAmong] using hi
  | step :: rest =>
    obtain ⟨hstep, hrest⟩ := Bool.and_eq_true_iff.mp hs
    have hafter : IsActive (run contexts bs step).bindings i := (grown_run bs step hstep).isActive hi
    rw [momentsAmong, List.forall_mem_append]
    refine ⟨isActive_moments bs step hstep hi, ?_⟩
    cases (run contexts bs step).raised with
    | some f => simpa using hafter
    | none => exact isActive_momentsAmong _ rest hrest hafter

end

/-- A busy context refuses every session: nothing runs and nothing changes. -/
theorem enter_of_active {b : Binding} {c : Context} (hb : bs[i]? = some b) (hc : contexts[i]? = some c)
    (ha : b.active = true) : enter contexts bs i = .error (.filter .contextInUse) := by
  rw [enter, hb, hc]
  simp [acquire, ha, Except.map]

/-- Whatever a step of sessions runs into and hands on, it leaves every context as busy as it was, with one
reset more for each session that opened on it, and other contexts alone. Passes and sessions on a busy
context are refused without running anything, and a context is busy while the steps of its session run. -/
theorem run_keeps_bindings (contexts : List Context) (bs : List Binding) (step : Step)
    (hs : step.isScoped = true) :
    (∀ k, (run contexts bs step).bindings[k]? =
      bs[k]?.map fun b : Binding => { b with resets := b.resets + openings contexts bs k step }) ∧
    (∀ k ∉ step.contexts, (run contexts bs step).bindings[k]? = bs[k]?) ∧
    (∀ i b c, bs[i]? = some b → contexts[i]? = some c → b.active = true →
      (∀ table registry entries upset, run contexts bs (.pass i table registry entries upset) =
        finish bs none (.error (.filter .contextInUse))) ∧
      ∀ body raises upset, run contexts bs (.within i body raises upset) =
        finish bs (some []) (.error (.filter .contextInUse))) ∧
    ∀ i b c, bs[i]? = some b → contexts[i]? = some c → b.active = false →
      ∀ body raises upset, areScoped body = true →
        (run contexts bs (.within i body raises upset)).report.inner =
          some (runAll contexts (bs.set i { b with active := true }) body).2.1 ∧
        ∀ s ∈ momentsAmong contexts (bs.set i { b with active := true }) body, IsActive s i := by
  have hgrown : Grown bs (run contexts bs step).bindings (openings contexts bs · step) :=
    grown_run bs step hs
  refine ⟨hgrown, fun k hk => ?_, fun i b c hb hc ha => ?_, ?_⟩
  · rw [hgrown k]
    simp [openings_of_not_mem bs step hk]
  · have he := enter_of_active hb hc ha
    refine ⟨fun table registry entries upset => ?_, fun body raises upset => ?_⟩
    · rw [run, pass, he]
    · rw [run, he]
  · intro i b c hb hc ha body raises upset hbody
    obtain ⟨active, n⟩ := b
    obtain rfl : active = false := ha
    have he : enter contexts bs i = .ok (some (c, bs.set i ⟨true, n⟩)) :=
      enter_eq_opened_iff.mpr ⟨hc, n, hb, rfl⟩
    refine ⟨?_, isActive_momentsAmong _ body hbody (isActive_enter he (.inr rfl))⟩
    rw [run, he]
    rfl

/-- A context that cannot clean up serves a session, in which a pass of its own is refused and a fault of
the body is hidden, and then a pass; the context beside it stays busy. -/
theorem run_keeps_bindings_of_failing_reset :
    let contexts : List Context := [⟨Backend.memory, true⟩, ⟨Backend.memory, false⟩]
    let bs : List Binding := [⟨false, 0⟩, ⟨true, 3⟩]
    let step : Step := .block [.caught (.within 0 [.caught (.pass 0 .standard .standard []),
      .caught (.pass 1 .standard .standard []), .raise .wrongKind] false), .pass 0 .standard .standard []]
    step.isScoped = true ∧ openings contexts bs 0 step = 2 ∧
    (run contexts bs step).raised = some .cleanup ∧
    (run contexts bs step).bindings[0]? = some ⟨false, 2⟩ ∧
    (run contexts bs step).bindings[1]? = some ⟨true, 3⟩ := by
  intro contexts bs step
  have hs : step.isScoped = true := by rfl
  have hn : openings contexts bs 0 step = 2 := by rfl
  have hn' : openings contexts bs 1 step = 0 := by rfl
  obtain ⟨hkeeps, -⟩ := run_keeps_bindings contexts bs step hs
  exact ⟨hs, hn, by rfl, by rw [hkeeps 0, hn]; rfl, by rw [hkeeps 1, hn']; rfl⟩

end RecordFilter.Session
