import Mathlib
import RecordFilter.Command.Alias
import RecordFilter.Proofs.Text.Split

namespace RecordFilter.Alias

variable {commands : List String} {command other name : String}

section Cutting

variable {s piece : List Char} {pieces ps qs : List (List Char)} {c : Char}

/-- The parts of a text. A cut takes the first comma of what is left, the blank in front of it and the blank behind
it, where there are such. -/
inductive CutAtCommas : List Char → List (List Char) → Prop
  | whole (s : List Char) (h : ',' ∉ s) : CutAtCommas s [s]
  | cut (piece front back rest : List Char) (pieces : List (List Char)) (hpiece : ',' ∉ piece)
      (hfront : front = [' '] ∨ front = [] ∧ ¬ [' '] <:+ piece)
      (hback : back = [' '] ∨ back = [] ∧ ¬ [' '] <+: rest)
      (hrest : CutAtCommas rest pieces) :
      CutAtCommas (piece ++ front ++ ',' :: (back ++ rest)) (piece :: pieces)

theorem cutAtCommas_cons (h : CutAtCommas s (piece :: pieces)) (hc : c ≠ ',')
    (hblank : c = ' ' → ∀ rest, s ≠ ',' :: rest) :
    CutAtCommas (c :: s) ((c :: piece) :: pieces) := by
  have hcons : ∀ text, ',' ∉ text → ',' ∉ c :: text := by
    intro text htext hmem
    exact (List.mem_cons.mp hmem).elim (fun heq => hc heq.symm) htext
  cases h with
  | whole _ hs => exact .whole (c :: s) (hcons s hs)
  | cut _ front back rest _ hpiece hfront hback hrest =>
    refine .cut (c :: piece) front back rest pieces (hcons piece hpiece) ?_ hback hrest
    rcases hfront with hfront | ⟨rfl, hends⟩
    · exact .inl hfront
    · refine .inr ⟨rfl, fun hsuffix => ?_⟩
      rcases List.suffix_cons_iff.mp hsuffix with hone | hlater
      · obtain ⟨rfl, rfl⟩ := List.cons.inj hone
        exact hblank rfl _ rfl
      · exact hends hlater

theorem split_ne_nil (s : List Char) : split s ≠ [] := by
  fun_cases split s <;> simp_all

theorem cutAtCommas_split (s : List Char) : CutAtCommas s (split s) := by
  fun_induction split s with
  | case1 rest ih => exact .cut [] [' '] [' '] rest _ (by simp) (.inl rfl) (.inl rfl) ih
  | case2 rest hne ih =>
    refine .cut [] [' '] [] rest _ (by simp) (.inl rfl) (.inr ⟨rfl, ?_⟩) ih
    intro hlead
    obtain ⟨tail, rfl⟩ := hlead
    exact hne tail rfl
  | case3 rest ih => exact .cut [] [] [' '] rest _ (by simp) (.inr ⟨rfl, by simp⟩) (.inl rfl) ih
  | case4 rest hne ih =>
    refine .cut [] [] [] rest _ (by simp) (.inr ⟨rfl, by simp⟩) (.inr ⟨rfl, ?_⟩) ih
    intro hlead
    obtain ⟨tail, rfl⟩ := hlead
    exact hne tail rfl
  | case5 => exact .whole [] (by simp)
  | case6 c rest _ _ _ _ hnil => exact absurd hnil (split_ne_nil rest)
  | case7 c rest _ hblank _ hcomma piece pieces hsplit ih =>
    rw [hsplit] at ih
    exact cutAtCommas_cons ih hcomma fun hc after hrest => hblank after hc hrest

/-- Two cuts at the same comma agree: each takes the blank behind it, or there is none. -/
theorem eq_of_blank_behind {back back' rest rest' : List Char} (h : back ++ rest = back' ++ rest')
    (hback : back = [' '] ∨ back = [] ∧ ¬ [' '] <+: rest)
    (hback' : back' = [' '] ∨ back' = [] ∧ ¬ [' '] <+: rest') : rest = rest' := by
  rcases hback with rfl | ⟨rfl, hnone⟩ <;> rcases hback' with rfl | ⟨rfl, hnone'⟩
  · exact List.append_cancel_left h
  · exact absurd ⟨rest, h⟩ hnone'
  · exact absurd ⟨rest', h.symm⟩ hnone
  · exact h

theorem eq_of_blank_in_front {front front' piece piece' : List Char} (h : piece ++ front = piece' ++ front')
    (hfront : front = [' '] ∨ front = [] ∧ ¬ [' '] <:+ piece)
    (hfront' : front' = [' '] ∨ front' = [] ∧ ¬ [' '] <:+ piece') : piece = piece' := by
  have hreversed : front.reverse ++ piece.reverse = front'.reverse ++ piece'.reverse := by
    rw [← List.reverse_append, h, List.reverse_append]
  have hturn : ∀ front piece : List Char, front = [' '] ∨ front = [] ∧ ¬ [' '] <:+ piece →
      front.reverse = [' '] ∨ front.reverse = [] ∧ ¬ [' '] <+: piece.reverse := by
    intro front piece hfront
    rcases hfront with rfl | ⟨rfl, hnone⟩
    · exact .inl rfl
    · exact .inr ⟨rfl, fun hlead => hnone (List.reverse_prefix.mp hlead)⟩
  exact List.reverse_injective (eq_of_blank_behind hreversed (hturn _ _ hfront) (hturn _ _ hfront'))

theorem CutAtCommas.unique (hp : CutAtCommas s ps) (hq : CutAtCommas s qs) : ps = qs := by
  have hplain : ∀ front piece : List Char, front = [' '] ∨ front = [] ∧ ¬ [' '] <:+ piece → ',' ∉ piece →
      ',' ∉ piece ++ front := by
    intro front piece hfront hpiece
    rcases hfront with rfl | ⟨rfl, -⟩ <;> simpa using hpiece
  -- On one way of cutting. The other has its first comma at the same place, for no first piece has one.
  induction hp generalizing qs with
  | whole s hs =>
    cases hq with
    | whole => rfl
    | cut => exact absurd (by simp) hs
  | cut piece front back rest pieces hpiece hfront hback _ ih =>
    generalize ht : piece ++ front ++ ',' :: (back ++ rest) = t at hq
    cases hq with
    | whole _ hs => exact absurd (ht ▸ by simp) hs
    | cut piece' front' back' rest' pieces' hpiece' hfront' hback' hrest' =>
      have hcut := congrArg (Text.cutAt ',') ht
      rw [Text.cutAt_append _ _ _ (hplain _ _ hfront hpiece),
        Text.cutAt_append _ _ _ (hplain _ _ hfront' hpiece')] at hcut
      obtain ⟨hbefore, hafter⟩ := Prod.mk.inj hcut
      obtain rfl := eq_of_blank_in_front hbefore hfront hfront'
      obtain rfl := eq_of_blank_behind (Option.some.inj hafter) hback hback'
      rw [ih hrest']

theorem CutAtCommas.comma_not_mem (h : CutAtCommas s ps) : ∀ piece ∈ ps, ',' ∉ piece := by
  induction h with
  | whole s hs => simpa using hs
  | cut piece _ _ _ pieces hpiece _ _ _ ih => exact List.forall_mem_cons.mpr ⟨hpiece, ih⟩

end Cutting

section Resolving

/-- The text is one of the parts of the name of a command. -/
def IsAlias (command name : String) : Prop :=
  ∃ parts, CutAtCommas command.toList parts ∧ name.toList ∈ parts

theorem isAlias_iff : IsAlias command name ↔ name ∈ aliases command := by
  have hmem : name ∈ aliases command ↔ name.toList ∈ split command.toList := by
    rw [aliases, List.mem_map]
    constructor
    · intro h
      obtain ⟨piece, hpiece, rfl⟩ := h
      rwa [String.toList_ofList]
    · intro h
      exact ⟨name.toList, h, String.ofList_toList⟩
  rw [hmem]
  constructor
  · intro h
    obtain ⟨parts, hparts, hname⟩ := h
    rwa [(cutAtCommas_split command.toList).unique hparts]
  · intro h
    exact ⟨_, cutAtCommas_split command.toList, h⟩

theorem exists_isAlias (command : String) : ∃ name, IsAlias command name := by
  obtain ⟨piece, hpiece⟩ := List.exists_mem_of_ne_nil _ (split_ne_nil command.toList)
  exact ⟨String.ofList piece, _, cutAtCommas_split command.toList, by rwa [String.toList_ofList]⟩

theorem IsAlias.comma_not_mem (h : IsAlias command name) : ',' ∉ name.toList := by
  obtain ⟨parts, hparts, hname⟩ := h
  exact hparts.comma_not_mem _ hname

/-- A name without a comma is its own alias, and has no other. -/
theorem isAlias_iff_eq (h : ',' ∉ command.toList) : IsAlias command name ↔ name = command := by
  have hwhole : CutAtCommas command.toList [command.toList] := .whole _ h
  constructor
  · intro h
    obtain ⟨parts, hparts, hname⟩ := h
    rw [hparts.unique hwhole, List.mem_singleton] at hname
    exact String.toList_inj.mp hname
  · intro heq
    subst heq
    exact ⟨_, hwhole, List.mem_singleton_self _⟩

/-- A text is resolved to a command that has it as an alias, or stays when there is none. -/
theorem resolve_cases (commands : List String) (name : String) :
    (∃ command ∈ commands, IsAlias command name ∧ resolve commands name = command) ∨
      (∀ command ∈ commands, command ≠ "" → ¬ IsAlias command name) ∧ resolve commands name = name := by
  rw [resolve]
  cases hfound : commands.find? fun c => !c.isEmpty && (aliases c).contains name with
  | some command =>
    have halias := List.find?_some hfound
    refine .inl ⟨command, List.mem_of_find?_eq_some hfound, isAlias_iff.mpr ?_, rfl⟩
    simpa using (Bool.and_eq_true_iff.mp halias).2
  | none =>
    refine .inr ⟨fun command hcommand hne halias => ?_, rfl⟩
    have hnot := List.find?_eq_none.mp hfound command hcommand
    simp [isAlias_iff.mp halias, hne] at hnot

theorem resolve_resolve (commands : List String) (name : String) :
    resolve commands (resolve commands name) = resolve commands name := by
  rcases resolve_cases commands name with ⟨command, -, halias, hname⟩ | ⟨-, hname⟩
  · by_cases hcomma : ',' ∈ command.toList
    · rcases resolve_cases commands command with ⟨other, -, hother, -⟩ | ⟨-, hstays⟩
      · exact absurd hcomma hother.comma_not_mem
      · rw [hname, hstays]
    · obtain rfl := (isAlias_iff_eq hcomma).mp halias
      rw [hname, hname]
  · rw [hname, hname]

end Resolving

section Listing

/-- Of names that differ, those that are not done yet are added in their order. -/
theorem foldl_listed (h : commands.Nodup) (done : List String) :
    commands.foldl (fun done c => if done.contains c then done else done ++ [c]) done =
      done ++ commands.filter fun c => c ∉ done := by
  induction commands generalizing done with
  | nil => simp
  | cons c commands ih =>
    obtain ⟨hc, hrest⟩ := List.nodup_cons.mp h
    rw [List.foldl_cons]
    by_cases hdone : c ∈ done
    · have hskip : (c :: commands).filter (fun c => c ∉ done) = commands.filter fun c => c ∉ done :=
        List.filter_cons_of_neg (by simpa using hdone)
      rw [if_pos (List.contains_iff_mem.mpr hdone), ih hrest, hskip]
    · have hkeep : (c :: commands).filter (fun c => c ∉ done) = c :: commands.filter fun c => c ∉ done :=
        List.filter_cons_of_pos (by simpa using hdone)
      have hsame : (commands.filter fun d => d ∉ done ++ [c]) = commands.filter fun d => d ∉ done := by
        refine List.filter_congr fun d hd => ?_
        have hne : d ≠ c := fun heq => hc (heq ▸ hd)
        simp [hne]
      rw [if_neg (by simpa using hdone), ih hrest, hsame, hkeep, List.append_assoc, List.singleton_append]

theorem listed_eq (h : commands.Nodup) :
    listed commands = leading.filter (· ∈ commands) ++ commands.filter (· ∉ leading) := by
  have hfirst : leading.filter commands.contains = leading.filter (· ∈ commands) :=
    List.filter_congr fun c _ => by simp
  have hothers : (commands.filter fun c => c ∉ leading.filter (· ∈ commands)) =
      commands.filter (· ∉ leading) := by
    refine List.filter_congr fun c hc => ?_
    simp [List.mem_filter, hc]
  rw [listed, hfirst, foldl_listed h, hothers]

theorem mem_listed_iff (h : commands.Nodup) : command ∈ listed commands ↔ command ∈ commands := by
  rw [listed_eq h, List.mem_append, List.mem_filter, List.mem_filter]
  simp only [decide_eq_true_eq]
  tauto

theorem nodup_listed (h : commands.Nodup) : (listed commands).Nodup := by
  have hleading : leading.Nodup := by decide
  rw [listed_eq h]
  refine (hleading.filter _).append (h.filter _) fun c hfirst hother => ?_
  have hnot : c ∉ leading := by simpa using (List.mem_filter.mp hother).2
  exact hnot (List.mem_filter.mp hfirst).1

end Listing

section Unambiguous

/-- No two commands share an alias. -/
def Unambiguous (commands : List String) : Prop :=
  commands.Pairwise fun command other => ∀ name, IsAlias command name → ¬ IsAlias other name

theorem unambiguous_iff :
    Unambiguous commands ↔
      commands.Pairwise fun command other => ∀ name ∈ aliases command, name ∉ aliases other := by
  simp only [Unambiguous, isAlias_iff]

theorem Unambiguous.nodup (h : Unambiguous commands) : commands.Nodup := by
  refine List.Pairwise.imp ?_ h
  intro command other hdisjoint heq
  subst heq
  obtain ⟨name, hname⟩ := exists_isAlias command
  exact hdisjoint name hname hname

theorem Unambiguous.eq_of_isAlias (h : Unambiguous commands) (hcommand : command ∈ commands)
    (hother : other ∈ commands) (hname : IsAlias command name) (hname' : IsAlias other name) :
    command = other := by
  by_contra hne
  have hsymm : Std.Symm fun command other : String => ∀ name, IsAlias command name → ¬ IsAlias other name :=
    ⟨fun _ _ hdisjoint name hname hname' => hdisjoint name hname' hname⟩
  exact List.Pairwise.forall h hcommand hother hne name hname hname'

theorem Unambiguous.resolve_of_isAlias (h : Unambiguous commands) (hcommand : command ∈ commands)
    (hname : IsAlias command name) : resolve commands name = command := by
  rcases resolve_cases commands name with ⟨other, hother, hname', hresolve⟩ | ⟨hnone, hstays⟩
  · rw [hresolve, h.eq_of_isAlias hother hcommand hname' hname]
  · -- Only a command without a name is passed over, and its one alias is the empty text.
    obtain rfl : command = "" := by
      by_contra hne
      exact hnone command hcommand hne hname
    rw [hstays, (isAlias_iff_eq (by simp)).mp hname]

theorem Unambiguous.resolve_self (h : Unambiguous commands) (hcommand : command ∈ commands) :
    resolve commands command = command := by
  by_cases hcomma : ',' ∈ command.toList
  · rcases resolve_cases commands command with ⟨other, -, hother, -⟩ | ⟨-, hstays⟩
    · exact absurd hcomma hother.comma_not_mem
    · exact hstays
  · exact h.resolve_of_isAlias hcommand ((isAlias_iff_eq hcomma).mpr rfl)

theorem command?_eq_some (hcommand : command ∈ commands) (h : resolve commands name = command) :
    command? commands name = some command := by
  rw [command?, h]
  cases hfound : commands.find? (· == command) with
  | some other =>
    have hsame : (other == command) = true := by simpa using List.find?_some hfound
    rw [beq_iff_eq.mp hsame]
  | none => exact absurd (beq_self_eq_true command) (List.find?_eq_none.mp hfound command hcommand)

end Unambiguous

/-- Where no two commands share an alias, each alias leads to the command that has it and each full name to
itself; any other text stays as it is, and leads to no command. All commands are listed, each once: the leading
ones in their order, then the others as they came, and each of them is found by its name. Whatever the commands
are, what is resolved stays resolved. -/
theorem resolve_unambiguous (commands : List String) (h : Unambiguous commands) :
    (∀ command ∈ commands, ∀ name, IsAlias command name →
      resolve commands name = command ∧ command? commands name = some command) ∧
    (∀ command ∈ commands, resolve commands command = command) ∧
    (∀ name, (∀ command ∈ commands, ¬ IsAlias command name) →
      resolve commands name = name ∧ (name ∉ commands → command? commands name = none)) ∧
    (listed commands).Nodup ∧ (∀ command, command ∈ listed commands ↔ command ∈ commands) ∧
    listed commands = leading.filter (· ∈ commands) ++ commands.filter (· ∉ leading) ∧
    (∀ command ∈ listed commands, command? commands command = some command) ∧
    ∀ (others : List String) name, resolve others (resolve others name) = resolve others name := by
  refine ⟨fun command hcommand name hname => ?_, fun command => h.resolve_self, fun name hnone => ?_,
    nodup_listed h.nodup, fun command => mem_listed_iff h.nodup, listed_eq h.nodup, fun command hlisted => ?_,
    resolve_resolve⟩
  · have hresolve := h.resolve_of_isAlias hcommand hname
    exact ⟨hresolve, command?_eq_some hcommand hresolve⟩
  · rcases resolve_cases commands name with ⟨command, hcommand, hname, -⟩ | ⟨-, hstays⟩
    · exact absurd hname (hnone command hcommand)
    · refine ⟨hstays, fun hnot => ?_⟩
      rw [command?, hstays, List.find?_eq_none]
      intro command hcommand heq
      exact hnot (beq_iff_eq.mp heq ▸ hcommand)
  · have hcommand := (mem_listed_iff h.nodup).mp hlisted
    exact command?_eq_some hcommand (h.resolve_self hcommand)

/-- Names with several commas and with blanks beside them, one with an empty part, and one without a comma. -/
theorem resolve_unambiguous_spaced :
    let commands := ["x", "filter , g,run", "config, c", "parse, p", "y,"]
    Unambiguous commands ∧ resolve commands "run" = "filter , g,run" ∧
    resolve commands "" = "y," ∧ resolve commands "filter , g,run" = "filter , g,run" ∧
    resolve commands "filter " = "filter " ∧ command? commands "filter " = none ∧
    listed commands = ["parse, p", "config, c", "x", "filter , g,run", "y,"] := by
  intro commands
  have h : Unambiguous commands := unambiguous_iff.mpr (by decide)
  obtain ⟨halias, hself, hother, -, -, hlisted, -⟩ := resolve_unambiguous commands h
  have hrun : IsAlias "filter , g,run" "run" := isAlias_iff.mpr (by decide)
  have hempty : IsAlias "y," "" := isAlias_iff.mpr (by decide)
  have hnone : ∀ command ∈ commands, ¬ IsAlias command "filter " := by
    simp only [isAlias_iff]
    decide
  obtain ⟨hstays, hmissing⟩ := hother "filter " hnone
  refine ⟨h, (halias _ (by decide) _ hrun).1, (halias _ (by decide) _ hempty).1, hself _ (by decide), hstays,
    hmissing (by decide), ?_⟩
  rw [hlisted]
  decide

end RecordFilter.Alias
