import Mathlib
import RecordFilter.Proofs.Fallible
import RecordFilter.Proofs.Settings.Run

namespace RecordFilter.Settings

open Fallible

/-- An action on a store, or a change of its folder from outside. -/
inductive Event
  | act (action : Action)
  | edit (folder : Folder)

def Event.change? : Event → Option Change
  | .act action => action.change?
  | .edit _ => none

namespace State

def happen (t : State) : Event → State
  | .act action => t.step action
  | .edit folder => { t with workspace := { t.workspace with folder } }

def live (t : State) (events : List Event) : State := events.foldl happen t

/-- What takes the mark from a dirty store: a reload, or a flush that writes. -/
def settles (t : State) : Event → Bool
  | .act .reload => true
  | .act .flush => t.flushes
  | _ => false

theorem live_concat (t : State) (events : List Event) (e : Event) :
    t.live (events ++ [e]) = (t.live events).happen e := by
  simp [live]

section Faults

variable {t : State} {change : Change} {f : Fault}

/-- An update gives nothing, or is made to the settings that hold, or fails for the file with nothing loaded. The
store is dirty after each. -/
theorem update_cases (t : State) (change : Change) :
    change.isNone = true ∧ t.workspace.update change t.store = (⟨t.store.cached, true⟩, .ok ()) ∨
      (∃ base, t.store.settings .document t.workspace.file = .ok base ∧
        t.workspace.update change t.store = (⟨some (base.apply change), true⟩, .ok ())) ∨
      ∃ f, t.store.cached = none ∧ ofFile .document t.workspace.file = .error f ∧
        t.workspace.update change t.store = (⟨none, true⟩, .error f) := by
  obtain ⟨w, cached, isDirty⟩ := t
  unfold Workspace.update Store.update
  by_cases hchange : change.isNone = true
  · exact .inl ⟨hchange, if_pos hchange⟩
  · simp only [if_neg hchange]
    cases cached with
    | some s => exact .inr (.inl ⟨s, rfl, rfl⟩)
    | none =>
      cases hread : ofFile .document w.file with
      | ok s => exact .inr (.inl ⟨s, hread, by simp [Store.settings, hread]⟩)
      | error f => exact .inr (.inr ⟨f, rfl, rfl, by simp [Store.settings, hread]⟩)

theorem step_update_of_fault (h : (t.workspace.update change t.store).2 = .error f) :
    t.store.cached = none ∧ ofFile .document t.workspace.file = .error f ∧
      t.step (.update change) = { t with store := ⟨none, true⟩ } := by
  rcases t.update_cases change with ⟨-, hupdate⟩ | ⟨base, -, hupdate⟩ | ⟨g, hnone, hread, hupdate⟩
  · rw [hupdate] at h
    cases h
  · rw [hupdate] at h
    cases h
  · rw [hupdate] at h
    obtain rfl := Except.error.inj h
    exact ⟨hnone, hread, by rw [step, hupdate]⟩

theorem isDirty_step_update (t : State) (change : Change) : (t.step (.update change)).store.isDirty = true := by
  rcases t.update_cases change with ⟨-, hupdate⟩ | ⟨base, -, hupdate⟩ | ⟨g, -, -, hupdate⟩ <;>
    rw [step, hupdate]

theorem step_get_of_fault (h : (t.workspace.get t.store).2 = .error f) :
    t.store.cached = none ∧ ofFile .document t.workspace.file = .error f ∧ t.step .get = t := by
  obtain ⟨w, cached, isDirty⟩ := t
  cases cached with
  | some s => cases h
  | none =>
    cases hread : ofFile .document w.file with
    | ok s => simp [Workspace.get, Store.get, Store.settings, hread] at h
    | error g =>
      simp only [Workspace.get, Store.get, Store.settings, hread] at h
      exact ⟨rfl, h, by simp [step, Workspace.get, Store.get, Store.settings, hread]⟩

/-- A flush reads nothing. It fails only by writing. -/
theorem step_flush_of_fault (h : t.workspace.flush t.store = .error f) :
    t.step .flush = t ∧ ∃ s, t.store = ⟨some s, true⟩ ∧
      t.workspace.folder.write t.workspace.path (Form.document.write s) = .error f := by
  obtain ⟨w, cached, isDirty⟩ := t
  refine ⟨by simp only [step, h], ?_⟩
  cases cached with
  | none => cases h
  | some s =>
    cases isDirty with
    | false => cases h
    | true =>
      exact ⟨s, rfl, map_eq_error.mp h⟩

end Faults

section Marks

/-- After an event the store is dirty when it is an update, failed or not, or when the store was dirty and the
event does not settle that. -/
theorem isDirty_happen (t : State) (e : Event) :
    (t.happen e).store.isDirty = true ↔
      (∃ change, e = .act (.update change)) ∨ t.store.isDirty = true ∧ t.settles e = false := by
  cases e with
  | edit folder => simp [happen, settles]
  | act action =>
    cases action with
    | reload => simp [happen, step, Store.reload, settles]
    | update change => simp [happen, isDirty_step_update]
    | get =>
      have hsame : (t.step .get).store.isDirty = t.store.isDirty := by
        rcases t.step_get with h | ⟨s, -, -, h⟩ <;> rw [h]
      simp [happen, hsame, settles]
    | flush =>
      rcases t.step_flush with ⟨hwrites, h, -⟩ | ⟨s, folder, hwrites, hstore, -, h⟩
      · simp [happen, h, settles, hwrites]
      · simp [happen, h, settles, hwrites]

/-- A run with an update, failed or not, that nothing has settled since. -/
inductive Unsettled (t : State) : List Event → Prop
  | update (events : List Event) (change : Change) : Unsettled t (events ++ [.act (.update change)])
  | later {events : List Event} {e : Event} (h : Unsettled t events) (he : (t.live events).settles e = false) :
    Unsettled t (events ++ [e])

theorem not_unsettled_nil (t : State) : ¬ Unsettled t [] := by
  intro h
  generalize hnil : ([] : List Event) = events at h
  cases h <;> simp at hnil

theorem unsettled_concat_iff {t : State} {events : List Event} {e : Event} :
    Unsettled t (events ++ [e]) ↔
      (∃ change, e = .act (.update change)) ∨ Unsettled t events ∧ (t.live events).settles e = false := by
  constructor
  · intro h
    generalize hall : events ++ [e] = all at h
    cases h with
    | update before change =>
      obtain ⟨-, he⟩ := List.append_inj' hall rfl
      exact .inl ⟨change, List.singleton_inj.mp he⟩
    | later hbefore hsettles =>
      obtain ⟨rfl, he⟩ := List.append_inj' hall rfl
      obtain rfl := List.singleton_inj.mp he
      exact .inr ⟨hbefore, hsettles⟩
  · rintro (⟨change, rfl⟩ | ⟨h, he⟩)
    · exact .update events change
    · exact .later h he

/-- From a clean start, a store is dirty exactly when an update is unsettled. -/
theorem isDirty_live_iff {t : State} (ht : t.store.isDirty = false) (events : List Event) :
    (t.live events).store.isDirty = true ↔ Unsettled t events := by
  induction events using List.reverseRecOn with
  | nil => simp [live, ht, not_unsettled_nil]
  | append_singleton events e ih => rw [live_concat, isDirty_happen, unsettled_concat_iff, ih]

/-- Only changes from outside and a flush of dirty settings change the folder. The flush writes these settings. -/
theorem happen_workspace {t : State} {e : Event} (h : (t.happen e).workspace ≠ t.workspace) :
    (∃ folder, e = .edit folder) ∨
      e = .act .flush ∧ ∃ s, t.store = ⟨some s, true⟩ ∧
        (t.happen e).workspace.file.text = some (Form.document.write s) := by
  cases e with
  | edit folder => exact .inl ⟨folder, rfl⟩
  | act action =>
    obtain ⟨rfl, -⟩ := step_workspace h
    rcases t.step_flush with ⟨-, hstays, -⟩ | ⟨s, folder, -, hstore, hwrite, hstep⟩
    · exact absurd (congrArg State.workspace hstays) h
    · refine .inr ⟨rfl, s, hstore, ?_⟩
      rw [happen, hstep]
      exact Folder.text?_of_write hwrite

end Marks

section Loaded

def changesIn (events : List Event) : List Change := events.filterMap Event.change?

/-- Loaded settings are those of the file as it was when they were loaded, with the changes given since then. -/
def LoadedFrom (t : State) (events : List Event) (s : Settings) : Prop :=
  ∃ before since, events = before ++ since ∧ (t.live before).store.cached = none ∧
    s.Follows (t.live before).workspace.file (changesIn since)

/-- What is loaded after an event was loaded by it from the file, or follows from what was loaded before. -/
theorem follows_happen {t : State} {e : Event} {s : Settings} (hs : (t.happen e).store.cached = some s) :
    t.store.cached = none ∧ s.Follows t.workspace.file (changesIn [e]) ∨
      ∃ loaded, t.store.cached = some loaded ∧
        ∀ origin changes, loaded.Follows origin changes → s.Follows origin (changes ++ changesIn [e]) := by
  have hkeeps : (e.change? = none ∧ t.store.cached = some s) → ∃ loaded, t.store.cached = some loaded ∧
      ∀ origin changes, loaded.Follows origin changes → s.Follows origin (changes ++ changesIn [e]) := by
    rintro ⟨hnone, hsame⟩
    have hchanges : changesIn [e] = [] := by simp [changesIn, hnone]
    exact ⟨s, hsame, fun origin changes h => by rwa [hchanges, List.append_nil]⟩
  cases e with
  | edit folder => exact .inr (hkeeps ⟨rfl, hs⟩)
  | act action =>
    cases action with
    | reload => cases hs
    | get =>
      rcases t.step_get with hstep | ⟨loaded, hnone, hread, hstep⟩
      · exact .inr (hkeeps ⟨rfl, hstep ▸ hs⟩)
      · have hcached : some loaded = some s := by simpa [happen, hstep] using hs
        obtain rfl := Option.some.inj hcached
        exact .inl ⟨hnone, follows_of_ofFile hread⟩
    | flush =>
      rcases t.step_flush with ⟨-, hstep, -⟩ | ⟨loaded, folder, -, hstore, -, hstep⟩
      · exact .inr (hkeeps ⟨rfl, hstep ▸ hs⟩)
      · have hcached : some loaded = some s := by simpa [happen, hstep] using hs
        exact .inr (hkeeps ⟨rfl, by rw [hstore, hcached]⟩)
    | update change =>
      have hone : changesIn [.act (.update change)] = [change] := rfl
      rw [hone]
      have hcached : (t.workspace.update change t.store).1.cached = some s := hs
      rcases t.update_cases change with ⟨hchange, hupdate⟩ | ⟨base, hbase, hupdate⟩ | ⟨f, -, -, hupdate⟩
      · rw [hupdate] at hcached
        refine .inr ⟨s, hcached, fun origin changes h => (follows_append_iff ?_).mpr h⟩
        simpa using hchange
      · rw [hupdate] at hcached
        obtain rfl := Option.some.inj hcached
        cases hc : t.store.cached with
        | none =>
          have hread : ofFile .document t.workspace.file = .ok base := by
            simpa [Store.settings, hc] using hbase
          exact .inl ⟨rfl, follows_apply (follows_of_ofFile hread) change⟩
        | some loaded =>
          obtain rfl : loaded = base := by simpa [Store.settings, hc] using hbase
          exact .inr ⟨loaded, rfl, fun origin changes h => follows_apply h change⟩
      · rw [hupdate] at hcached
        cases hcached

theorem loadedFrom_live {t : State} (ht : t.store.cached = none) (events : List Event) :
    ∀ s, (t.live events).store.cached = some s → LoadedFrom t events s := by
  induction events using List.reverseRecOn with
  | nil =>
    intro s hs
    cases ht.symm.trans hs
  | append_singleton events e ih =>
    intro s hs
    rw [live_concat] at hs
    rcases follows_happen hs with ⟨hnone, hfollows⟩ | ⟨loaded, hloaded, hfollows⟩
    · exact ⟨events, [e], rfl, hnone, hfollows⟩
    · obtain ⟨before, since, rfl, hnone, h⟩ := ih loaded hloaded
      refine ⟨before, since ++ [e], by simp, hnone, ?_⟩
      rw [changesIn, List.filterMap_append]
      exact hfollows _ _ h

end Loaded

end State

open State (LoadedFrom Unsettled)

/-- What fails for a file that cannot be read leaves the folder and the loaded settings as they are, and so does
all else that fails; only the mark of an update stays, and what it was to change is lost. In a run with changes
from outside, a store is dirty exactly when an update, failed or not, has not been settled by a reload or by a
flush that writes; only then does a flush write, and then the settings of the file as it was loaded, with the
changes given since. -/
theorem unread_file_leaves_mark (w : Workspace) (events : List Event) :
    (∀ (t : State) f, (t.workspace.get t.store).2 = .error f →
      t.store.cached = none ∧ ofFile .document t.workspace.file = .error f ∧ t.step .get = t) ∧
    (∀ (t : State) change f, (t.workspace.update change t.store).2 = .error f →
      t.store.cached = none ∧ ofFile .document t.workspace.file = .error f ∧
        t.step (.update change) = { t with store := ⟨none, true⟩ }) ∧
    (∀ (t : State) f, t.workspace.flush t.store = .error f →
      t.step .flush = t ∧ ∃ s, t.store = ⟨some s, true⟩ ∧
        t.workspace.folder.write t.workspace.path (Form.document.write s) = .error f) ∧
    let t := State.live ⟨w, {}⟩ events
    (t.store.isDirty = true ↔ Unsettled ⟨w, {}⟩ events) ∧
    (∀ s, t.store.cached = some s → LoadedFrom ⟨w, {}⟩ events s) ∧
    ∀ e, (t.happen e).workspace ≠ t.workspace →
      (∃ folder, e = .edit folder) ∨
        e = .act .flush ∧ Unsettled ⟨w, {}⟩ events ∧
          ∃ s, LoadedFrom ⟨w, {}⟩ events s ∧
            (t.happen e).workspace.file.text = some (Form.document.write s) := by
  refine ⟨fun t f => State.step_get_of_fault, fun t change f => State.step_update_of_fault,
    fun t f => State.step_flush_of_fault, ?_⟩
  intro t
  have hdirty : t.store.isDirty = true ↔ Unsettled ⟨w, {}⟩ events := State.isDirty_live_iff rfl events
  have hloaded : ∀ s, t.store.cached = some s → LoadedFrom ⟨w, {}⟩ events s := State.loadedFrom_live rfl events
  refine ⟨hdirty, hloaded, fun e he => ?_⟩
  rcases State.happen_workspace he with hedit | ⟨rfl, s, hstore, htext⟩
  · exact .inl hedit
  · exact .inr ⟨rfl, hdirty.mp (by rw [hstore]), s, hloaded s (by rw [hstore]), htext⟩

section Repaired

theorem normal_config : Folder.normal "config.yaml" = "config.yaml" := by decide +kernel

theorem write_single (old new : String) :
    Folder.write ⟨[("config.yaml", old)]⟩ "config.yaml" new = .ok ⟨[("config.yaml", new)]⟩ := by
  have hparts : Folder.parts "config.yaml" = ["config.yaml"] := by decide +kernel
  simp [Folder.write, Folder.above, Folder.isFolder, Folder.put, normal_config, hparts]

/-- A file that holds a word and no entries. -/
theorem ofFile_word : ofFile .document ⟨"config.yaml", some "oops\n"⟩ =
    .error (.violation (.settingsNotMapping "config.yaml")) := by
  have hts : Document.Token.ofText? (Document.unifyLines "oops\n".toList) = some [.scalar "oops" true] := by
    decide +kernel
  have hword : Document.Form.typeOf "oops" = "str" := by decide +kernel
  have hread : Form.document.read "oops\n" = .ok (.text "oops") := by
    rw [read_document, load_of_scalar hts, hword]
    rfl
  simp only [ofFile, hread]

theorem ofFile_entry : ofFile .document ⟨"config.yaml", some "filter_prefix: x\n"⟩ =
    .ok { standard with filterPrefix := .text "x" } := by
  have hts : Document.Token.ofText? (Document.unifyLines "filter_prefix: x\n".toList) =
      some [.blockMappingStart, .key, .scalar "filter_prefix" true, .value, .scalar "x" true, .blockEnd] := by
    decide +kernel
  have hname : Document.Form.typeOf "filter_prefix" = "str" := by decide +kernel
  have hword : Document.Form.typeOf "x" = "str" := by decide +kernel
  exact ofFile_of_entry hts hname (by rw [hword]; rfl)

/-- An update that fails for a file without entries, the file repaired from outside, and then read. -/
def repaired (change : Change) : List Event :=
  [.act (.update change), .edit ⟨[("config.yaml", "filter_prefix: x\n")]⟩, .act .get]

theorem live_repaired (change : Change) (h : ¬ change.isNone = true) :
    let broken : Workspace := ⟨⟨[("config.yaml", "oops\n")]⟩, "config.yaml"⟩
    (broken.update change {}).2 = .error (.violation (.settingsNotMapping "config.yaml")) ∧
    State.live ⟨broken, {}⟩ (repaired change) =
      ⟨⟨⟨[("config.yaml", "filter_prefix: x\n")]⟩, "config.yaml"⟩,
        some { standard with filterPrefix := .text "x" }, true⟩ := by
  intro broken
  have hfile : broken.file = ⟨"config.yaml", some "oops\n"⟩ := file_single normal_config _
  have hfails : broken.update change {} =
      (⟨none, true⟩, .error (.violation (.settingsNotMapping "config.yaml"))) := by
    rcases State.update_cases ⟨broken, {}⟩ change with
      ⟨hnone, -⟩ | ⟨base, hbase, -⟩ | ⟨f, -, hread, hupdate⟩
    · exact absurd hnone h
    · have hread : ofFile .document broken.file = .ok base := hbase
      rw [hfile, ofFile_word] at hread
      cases hread
    · rw [hfile, ofFile_word] at hread
      obtain rfl := Except.error.inj hread
      exact hupdate
  refine ⟨by rw [hfails], ?_⟩
  have hread : ofFile .document (Workspace.file ⟨⟨[("config.yaml", "filter_prefix: x\n")]⟩, "config.yaml"⟩) =
      .ok { standard with filterPrefix := .text "x" } := by
    rw [file_single normal_config, ofFile_entry]
  have hstep : State.step ⟨broken, {}⟩ (.update change) = ⟨broken, ⟨none, true⟩⟩ := by
    rw [State.step, hfails]
  simp only [State.live, repaired, List.foldl_cons, List.foldl_nil, State.happen, hstep]
  exact State.step_get_of_ofFile rfl hread

/-- After the repair the settings are those of the file, without the change, and the flush that follows was called
for by the failed update alone. -/
theorem unread_file_leaves_mark_repaired :
    let broken : Workspace := ⟨⟨[("config.yaml", "oops\n")]⟩, "config.yaml"⟩
    let change : Change := { filterPrefix := some (.text "q") }
    let s : Settings := { standard with filterPrefix := .text "x" }
    let t := State.live ⟨broken, {}⟩ (repaired change)
    (broken.update change {}).2 = .error (.violation (.settingsNotMapping "config.yaml")) ∧
    State.step ⟨broken, {}⟩ (.update change) = ⟨broken, ⟨none, true⟩⟩ ∧
    t.store = ⟨some s, true⟩ ∧ Unsettled ⟨broken, {}⟩ (repaired change) ∧
    LoadedFrom ⟨broken, {}⟩ (repaired change) s := by
  intro broken change s t
  obtain ⟨hfails, hlive⟩ := live_repaired change (by decide)
  obtain ⟨-, hupdate, -, hdirty, hloaded, -⟩ := unread_file_leaves_mark broken (repaired change)
  obtain ⟨-, -, hstep⟩ := hupdate ⟨broken, {}⟩ change _ hfails
  have hstore : t.store = ⟨some s, true⟩ := congrArg State.store hlive
  exact ⟨hfails, hstep, hstore, hdirty.mp (congrArg Store.isDirty hstore),
    hloaded s (congrArg Store.cached hstore)⟩

/-- A failed update, the only one, marks the store as dirty, and a flush then writes the repaired file anew. -/
theorem failed_update_is_flushed :
    let broken : Workspace := ⟨⟨[("config.yaml", "oops\n")]⟩, "config.yaml"⟩
    let change : Change := { filterPrefix := some (.text "q") }
    let t := State.live ⟨broken, {}⟩ (repaired change)
    (broken.update change {}).2 = .error (.violation (.settingsNotMapping "config.yaml")) ∧
    (broken.update change {}).1.isDirty = true ∧
    t.workspace.file.text = some "filter_prefix: x\n" ∧
    (t.step .flush).workspace.file.text =
      some "filter_prefix: x\nignore_empty_value: true\nlog_level: WARNING\nshow_header: true\n" := by
  intro broken change t
  obtain ⟨hfails, hlive⟩ := live_repaired change (by decide)
  have hmarked := (State.step_update_of_fault (t := ⟨broken, {}⟩) hfails).2.2
  have hdirty : (broken.update change {}).1.isDirty = true := congrArg (fun t => t.store.isDirty) hmarked
  have hwrite : Form.document.write { standard with filterPrefix := .text "x" } =
      "filter_prefix: x\nignore_empty_value: true\nlog_level: WARNING\nshow_header: true\n" := by
    rw [write_document]
    decide +kernel
  let fixed : Workspace := ⟨⟨[("config.yaml", "filter_prefix: x\n")]⟩, "config.yaml"⟩
  have ht : t = ⟨fixed, some { standard with filterPrefix := .text "x" }, true⟩ := hlive
  obtain ⟨-, hflush⟩ := State.step_flush_of_write (t := ⟨fixed, some _, true⟩) rfl (write_single _ _)
  refine ⟨hfails, hdirty, ?_, ?_⟩
  · rw [ht, file_single normal_config]
  · rw [ht, hflush, hwrite, file_single normal_config]

end Repaired

end RecordFilter.Settings
