import Mathlib
import RecordFilter.Proofs.Settings.Written

namespace RecordFilter.Settings

inductive Action
  | get
  | update (change : Change)
  | flush
  | reload

/-- The change that an action asks for. -/
def Action.change? : Action → Option Change
  | .update change => some change
  | _ => none

def changesOf (actions : List Action) : List Change := actions.filterMap Action.change?

/-- A store and the folder it works on. -/
structure State where
  workspace : Workspace
  store : Store := {}

namespace State

/-- What fails leaves the folder as it is. -/
def step (t : State) : Action → State
  | .get => { t with store := (t.workspace.get t.store).1 }
  | .update change => { t with store := (t.workspace.update change t.store).1 }
  | .flush =>
    match t.workspace.flush t.store with
    | .ok (workspace, store) => ⟨workspace, store⟩
    | .error _ => t
  | .reload => { t with store := t.store.reload }

def run (t : State) (actions : List Action) : State := actions.foldl step t

/-- A flush finds changed settings, and nothing keeps it from writing them. -/
def flushes (t : State) : Bool :=
  (t.store.pending .document).isSome && (t.workspace.flush t.store).isOk

variable {t : State} {s : Settings}

theorem step_get_of_ofFile (hc : t.store.cached = none) (hs : ofFile .document t.workspace.file = .ok s) :
    t.step .get = { t with store := { t.store with cached := some s } } := by
  simp [step, Workspace.get, Store.get, Store.settings, hc, hs]

theorem step_get (t : State) :
    t.step .get = t ∨
      ∃ s, t.store.cached = none ∧ ofFile .document t.workspace.file = .ok s ∧
        t.step .get = { t with store := { t.store with cached := some s } } := by
  obtain ⟨w, cached, isDirty⟩ := t
  cases cached with
  | some s => exact .inl rfl
  | none =>
    cases h : ofFile .document w.file with
    | error f => exact .inl (by simp [step, Workspace.get, Store.get, Store.settings, h])
    | ok s => exact .inr ⟨s, rfl, rfl, step_get_of_ofFile rfl h⟩

theorem step_update_of_isNone {change : Change} (h : change.isNone = true) (t : State) :
    t.step (.update change) = { t with store := { t.store with isDirty := true } } := by
  rw [step, Workspace.update, Store.update, if_pos h]

theorem step_update_of_settings {change : Change} (h : ¬ change.isNone = true)
    (hs : t.store.settings .document t.workspace.file = .ok s) :
    t.step (.update change) = { t with store := ⟨some (s.apply change), true⟩ } := by
  have hs' : ({ t.store with isDirty := true } : Store).settings .document t.workspace.file = .ok s := hs
  rw [step, Workspace.update, Store.update, if_neg h]
  simp only [hs']

theorem step_flush_of_write {folder : Folder} (hstore : t.store = ⟨some s, true⟩)
    (hwrite : t.workspace.folder.write t.workspace.path (Form.document.write s) = .ok folder) :
    t.flushes = true ∧ t.step .flush = ⟨{ t.workspace with folder }, ⟨some s, false⟩⟩ := by
  obtain ⟨w, store⟩ := t
  obtain rfl : store = ⟨some s, true⟩ := hstore
  have hflush : w.flush ⟨some s, true⟩ = .ok ({ w with folder }, ⟨some s, false⟩) := by
    simp [Workspace.flush, Store.pending, Store.written, hwrite, Except.map]
  constructor
  · simp [flushes, hflush, Except.isOk, Except.toBool, Store.pending]
  · simp [step, hflush]

/-- A flush writes what it finds loaded and dirty. If that fails, or there is no such thing, all stays as
it is. -/
theorem step_flush (t : State) :
    t.flushes = false ∧ t.step .flush = t ∧
        ((∀ s, t.store ≠ ⟨some s, true⟩) ∨ ∃ f, t.workspace.flush t.store = .error f) ∨
      ∃ s folder, t.flushes = true ∧ t.store = ⟨some s, true⟩ ∧
        t.workspace.folder.write t.workspace.path (Form.document.write s) = .ok folder ∧
        t.step .flush = ⟨{ t.workspace with folder }, ⟨some s, false⟩⟩ := by
  obtain ⟨w, cached, isDirty⟩ := t
  cases cached with
  | none => exact .inl ⟨rfl, rfl, .inl (by simp)⟩
  | some s =>
    cases isDirty with
    | false => exact .inl ⟨rfl, rfl, .inl (by simp)⟩
    | true =>
      cases h : w.folder.write w.path (Form.document.write s) with
      | error f =>
        have hflush : w.flush ⟨some s, true⟩ = .error f := by
          simp [Workspace.flush, Store.pending, h, Except.map]
        have hflushes : flushes ⟨w, some s, true⟩ = false := by
          simp [flushes, hflush, Except.isOk, Except.toBool]
        exact .inl ⟨hflushes, by simp [step, hflush], .inr ⟨f, hflush⟩⟩
      | ok folder =>
        obtain ⟨hflushes, hstep⟩ := step_flush_of_write (t := ⟨w, some s, true⟩) rfl h
        exact .inr ⟨s, folder, hflushes, rfl, h, hstep⟩

/-- Only a flush of changed settings changes the folder. -/
theorem step_workspace {action : Action} (h : (t.step action).workspace ≠ t.workspace) :
    action = .flush ∧ ∃ s, t.store = ⟨some s, true⟩ := by
  cases action with
  | get => exact absurd rfl h
  | update change => exact absurd rfl h
  | reload => exact absurd rfl h
  | flush =>
    rcases t.step_flush with ⟨-, hstep, -⟩ | ⟨s, -, -, hstore, -, -⟩
    · exact absurd (congrArg State.workspace hstep) h
    · exact ⟨rfl, s, hstore⟩

theorem run_append (t : State) (actions more : List Action) :
    t.run (actions ++ more) = (t.run actions).run more :=
  List.foldl_append

end State

section Following

variable {s t : Settings} {origin file : File} {changes more : List Change}

/-- The settings are those of a file with changes on top: each field has the last value that the changes
give for it, or else the one that the file holds. -/
def Follows (origin : File) (changes : List Change) (s : Settings) : Prop :=
  ∀ field, s.value field = (lastGiven? field changes).getD (heldIn .document origin field)

theorem follows_unique (h : s.Follows origin changes) (h' : t.Follows origin changes) : s = t :=
  eq_of_value fun field => (h field).trans (h' field).symm

theorem follows_of_ofFile (h : ofFile .document origin = .ok s) : s.Follows origin [] :=
  value_of_ofFile h

theorem get_fresh {w : Workspace} (h : ofFile .document w.file = .ok s) : (w.get {}).2 = .ok s := by
  simp [Workspace.get, Store.get, Store.settings, h]

theorem follows_append_iff (h : ∀ change ∈ more, change.isNone = true) :
    s.Follows origin (changes ++ more) ↔ s.Follows origin changes := by
  simp only [Follows, lastGiven?_append, lastGiven?_of_isNone h, Option.none_or]

theorem follows_apply (h : s.Follows origin changes) (change : Change) :
    (s.apply change).Follows origin (changes ++ [change]) := by
  intro field
  have hlast : lastGiven? field [change] = change.value? field := by
    cases hc : change.value? field <;> simp [lastGiven?, hc]
  rw [value_apply, lastGiven?_append, hlast, h field]
  cases change.value? field <;> rfl

/-- Changes can be counted from a later file on, one that holds what the changes before it left. -/
theorem follows_from {base : Settings} (hbase : base.Follows origin changes)
    (hfile : ofFile .document file = .ok base) (h : s.Follows origin (changes ++ more)) :
    s.Follows file more := by
  intro field
  rw [h field, lastGiven?_append, ← value_of_ofFile hfile field, hbase field]
  cases lastGiven? field more <;> rfl

end Following

/-- The changes that are in the file, and those that are not yet. -/
structure Ledger where
  flushed : List Change := []
  pending : List Change := []

namespace Ledger

/-- A change is pending until a flush writes it, or a reload drops it. -/
def record (l : Ledger) (t : State) : Action → Ledger
  | .get => l
  | .update change => { l with pending := l.pending ++ [change] }
  | .flush => if t.flushes then ⟨l.flushed ++ l.pending, []⟩ else l
  | .reload => { l with pending := [] }

def after (l : Ledger) (t : State) : List Action → Ledger
  | [] => l
  | action :: rest => (l.record t action).after (t.step action) rest

/-- The file has the flushed changes, the store the pending ones as well. Nothing that matters is pending
before the settings are read, and nothing at all where the store is not dirty. -/
structure Describes (l : Ledger) (origin : File) (t : State) : Prop where
  file : ∃ s, ofFile .document t.workspace.file = .ok s ∧ s.Follows origin l.flushed
  store : ∀ s, t.store.cached = some s → s.Follows origin (l.flushed ++ l.pending)
  unread : t.store.cached = none → ∀ change ∈ l.pending, change.isNone = true
  clean : t.store.isDirty = false → l.pending = []

variable {l : Ledger} {origin : File} {t : State}

theorem Describes.settings (h : l.Describes origin t) :
    ∃ s, t.store.settings .document t.workspace.file = .ok s ∧
      s.Follows origin (l.flushed ++ l.pending) := by
  cases hc : t.store.cached with
  | some s => exact ⟨s, by rw [Store.settings, hc], h.store s hc⟩
  | none =>
    obtain ⟨s, hfile, hs⟩ := h.file
    exact ⟨s, by rw [Store.settings, hc, hfile], (follows_append_iff (h.unread hc)).mpr hs⟩

theorem describes_get (h : l.Describes origin t) : l.Describes origin (t.step .get) := by
  rcases t.step_get with hstep | ⟨s, hc, hfile, hstep⟩
  · rw [hstep]
    exact h
  · obtain ⟨s', hs', hfollows⟩ := h.settings
    rw [Store.settings, hc, hfile] at hs'
    obtain rfl := Except.ok.inj hs'
    have hkept : ∀ s', some s = some s' → s'.Follows origin (l.flushed ++ l.pending) := by
      rintro _ ⟨⟩
      exact hfollows
    rw [hstep]
    exact { file := h.file, store := hkept, unread := by rintro ⟨⟩, clean := h.clean }

theorem describes_update (h : l.Describes origin t) (change : Change) :
    ({ l with pending := l.pending ++ [change] } : Ledger).Describes origin (t.step (.update change)) := by
  by_cases hnone : change.isNone = true
  · have hone : ∀ c ∈ [change], c.isNone = true := by simpa using hnone
    have hkept : ∀ s, t.store.cached = some s → s.Follows origin (l.flushed ++ (l.pending ++ [change])) := by
      intro s hs
      rw [← List.append_assoc]
      exact (follows_append_iff hone).mpr (h.store s hs)
    have hunread : t.store.cached = none → ∀ c ∈ l.pending ++ [change], c.isNone = true := by
      intro hc
      exact List.forall_mem_append.mpr ⟨h.unread hc, hone⟩
    rw [State.step_update_of_isNone hnone]
    exact { file := h.file, store := hkept, unread := hunread, clean := by rintro ⟨⟩ }
  · obtain ⟨s, hs, hfollows⟩ := h.settings
    have hkept : ∀ s', some (s.apply change) = some s' →
        s'.Follows origin (l.flushed ++ (l.pending ++ [change])) := by
      rintro _ ⟨⟩
      rw [← List.append_assoc]
      exact follows_apply hfollows change
    rw [State.step_update_of_settings hnone hs]
    exact { file := h.file, store := hkept, unread := by rintro ⟨⟩, clean := by rintro ⟨⟩ }

theorem describes_flush (h : l.Describes origin t)
    (hform : ∀ s, t.store.cached = some s → Form.document.Restores s) :
    (l.record t .flush).Describes origin (t.step .flush) := by
  rcases t.step_flush with ⟨hflushes, hstep, -⟩ | ⟨s, folder, hflushes, hstore, hwrite, hstep⟩
  · rw [hstep, record, if_neg (by simp [hflushes])]
    exact h
  · have hc : t.store.cached = some s := by rw [hstore]
    have hfollows : s.Follows origin (l.flushed ++ l.pending) := h.store s hc
    have htext : (t.step .flush).workspace.file.text = some (Form.document.write s) := by
      rw [hstep]
      exact Folder.text?_of_write hwrite
    have hfile : ofFile .document (t.step .flush).workspace.file = .ok s :=
      ofFile_of_restores (hform s hc) htext
    have hkept : ∀ s', (t.step .flush).store.cached = some s' →
        s'.Follows origin (l.flushed ++ l.pending ++ []) := by
      rw [hstep, List.append_nil]
      rintro _ ⟨⟩
      exact hfollows
    rw [record, if_pos hflushes]
    exact { file := ⟨s, hfile, hfollows⟩, store := hkept, unread := by simp, clean := fun _ => rfl }

theorem describes_reload (h : l.Describes origin t) :
    ({ l with pending := [] } : Ledger).Describes origin (t.step .reload) where
  file := h.file
  store := by rintro _ ⟨⟩
  unread := by simp
  clean := fun _ => rfl

/-- One action keeps the account, where a flush writes settings that can be read again. -/
theorem describes_step (h : l.Describes origin t) {action : Action}
    (hform : action = .flush → ∀ s, t.store.cached = some s → Form.document.Restores s) :
    (l.record t action).Describes origin (t.step action) := by
  cases action with
  | get => exact describes_get h
  | update change => exact describes_update h change
  | flush => exact describes_flush h (hform rfl)
  | reload => exact describes_reload h

end Ledger

/-- Whatever a flush of the run finds in the store is read back from what it writes. -/
def Restorable (t : State) (actions : List Action) : Prop :=
  ∀ before rest, actions = before ++ .flush :: rest →
    ∀ s, (t.run before).store.cached = some s → Form.document.Restores s

section Runs

variable {l : Ledger} {origin : File} {t : State} {actions more : List Action}

theorem restorable_of_not_mem (h : .flush ∉ actions) (t : State) : Restorable t actions := by
  rintro before rest rfl
  exact absurd (by simp) h

theorem restorable_cons_iff {action : Action} :
    Restorable t (action :: actions) ↔
      (action = .flush → ∀ s, t.store.cached = some s → Form.document.Restores s) ∧
        Restorable (t.step action) actions := by
  constructor
  · intro h
    constructor
    · rintro rfl
      exact h [] actions rfl
    · rintro before rest rfl
      exact h (action :: before) rest rfl
  · intro hh before rest heq
    obtain ⟨hnow, hlater⟩ := hh
    cases before with
    | nil =>
      obtain ⟨rfl, -⟩ := List.cons.inj heq
      exact hnow rfl
    | cons first before =>
      obtain ⟨rfl, hrest⟩ := List.cons.inj heq
      exact hlater before rest hrest

theorem Restorable.before (h : Restorable t (actions ++ more)) : Restorable t actions := by
  rintro before rest rfl
  exact h before (rest ++ more) (by simp)

theorem Restorable.rest (h : Restorable t (actions ++ more)) : Restorable (t.run actions) more := by
  rintro before rest rfl s hs
  rw [← State.run_append] at hs
  exact h (actions ++ before) rest (by simp) s hs

theorem describes_after (h : l.Describes origin t) (hform : Restorable t actions) :
    (l.after t actions).Describes origin (t.run actions) := by
  induction actions generalizing t l with
  | nil => exact h
  | cons action rest ih =>
    obtain ⟨hnow, hlater⟩ := restorable_cons_iff.mp hform
    exact ih (Ledger.describes_step h hnow) hlater

theorem after_append (l : Ledger) (t : State) (actions more : List Action) :
    l.after t (actions ++ more) = (l.after t actions).after (t.run actions) more := by
  induction actions generalizing t l with
  | nil => rfl
  | cons action rest ih => exact ih (l.record t action) (t.step action)

/-- Without a reload no change is lost. -/
theorem after_total (h : .reload ∉ actions) (l : Ledger) (t : State) :
    (l.after t actions).flushed ++ (l.after t actions).pending =
      l.flushed ++ l.pending ++ changesOf actions := by
  induction actions generalizing t l with
  | nil => simp [Ledger.after, changesOf]
  | cons action rest ih =>
    obtain ⟨haction, hrest⟩ := not_or.mp (mt List.mem_cons.mpr h)
    rw [Ledger.after, ih hrest]
    cases action with
    | get => rfl
    | update change => simp [Ledger.record, changesOf, Action.change?]
    | flush =>
      have hnothing : changesOf (.flush :: rest) = changesOf rest := rfl
      rw [Ledger.record, hnothing]
      split_ifs <;> simp
    | reload => exact absurd rfl haction

theorem describes_start {w : Workspace} (h : ofFile .document w.file = .ok s) :
    ({} : Ledger).Describes w.file ⟨w, {}⟩ where
  file := ⟨s, h, follows_of_ofFile h⟩
  store := by rintro _ ⟨⟩
  unread := by simp
  clean := fun _ => rfl

theorem get_of_clean (h : l.Describes origin t) (hc : t.store.cached = some s)
    (hclean : t.store.isDirty = false) :
    (t.workspace.get {}).2 = .ok s := by
  obtain ⟨s', hfile, hs'⟩ := h.file
  have hs : s.Follows origin l.flushed := by
    have hboth := h.store s hc
    rwa [h.clean hclean, List.append_nil] at hboth
  rw [follows_unique hs hs']
  exact get_fresh hfile

/-- A flush that finds loaded and dirty settings fails and changes nothing, or a new store gives what it
wrote. -/
theorem flush_of_dirty (h : l.Describes origin t) (hstore : t.store = ⟨some s, true⟩)
    (hform : Form.document.Restores s) :
    (∃ f, t.workspace.flush t.store = .error f) ∧ t.step .flush = t ∨
      (t.step .flush).store = ⟨some s, false⟩ ∧ ((t.step .flush).workspace.get {}).2 = .ok s := by
  have hform' : ∀ s', t.store.cached = some s' → Form.document.Restores s' := by
    rw [hstore]
    rintro _ ⟨⟩
    exact hform
  rcases t.step_flush with ⟨-, hstep, hstays | hfails⟩ | ⟨s', folder, -, hs', -, hstep⟩
  · exact absurd hstore (hstays s)
  · exact .inl ⟨hfails, hstep⟩
  · have hsame : some s' = some s := congrArg Store.cached (hs'.symm.trans hstore)
    have hstore' : (t.step .flush).store = ⟨some s, false⟩ := by rw [hstep, hsame]
    have hafter := Ledger.describes_flush h hform'
    exact .inr ⟨hstore', get_of_clean hafter (by rw [hstore']) (by rw [hstore'])⟩

/-- From where nothing is pending, and without a reload, loaded settings have the changes on top of the
file as it was there. -/
theorem follows_since (h : l.Describes origin t) (hnone : l.pending = []) (hform : Restorable t actions)
    (hreload : .reload ∉ actions) (hs : (t.run actions).store.cached = some s) :
    s.Follows t.workspace.file (changesOf actions) := by
  obtain ⟨base, hfile, hbase⟩ := h.file
  have hend := (describes_after h hform).store s hs
  rw [after_total hreload, hnone, List.append_nil] at hend
  exact follows_from hbase hfile hend

/-- Nothing is pending at the start, nor after a reload. -/
theorem pending_after {start : State} {before : List Action}
    (h : before = [] ∨ ∃ earlier, before = earlier ++ [.reload]) :
    (Ledger.after {} start before).pending = [] := by
  rcases h with rfl | ⟨earlier, rfl⟩
  · rfl
  · rw [after_append]
    rfl

/-- Runs of one store on a file that can be read. Loaded settings have the last value given since the last
reload for each field, or else the one that the file held then, or the standard one. Where nothing is
dirty, a new store on the file gives just these settings. Only a flush that finds loaded and dirty settings
changes the folder; it leaves nothing dirty, and a new store gives what it wrote. What a reload drops are
the changes since the last such flush: the flushed ones are in the file, the others in the store alone. -/
theorem run_follows_changes (w : Workspace) (actions : List Action)
    (hfile : ∃ s, ofFile .document w.file = .ok s) (hform : Restorable ⟨w, {}⟩ actions) :
    let start : State := ⟨w, {}⟩
    let t := start.run actions
    let l := Ledger.after {} start actions
    (∀ before since, actions = before ++ since → .reload ∉ since →
      (before = [] ∨ ∃ earlier, before = earlier ++ [.reload]) →
      ∀ s, t.store.cached = some s → s.Follows (start.run before).workspace.file (changesOf since)) ∧
    (∀ s, t.store.cached = some s → t.store.isDirty = false → (t.workspace.get {}).2 = .ok s) ∧
    (∀ before action rest, actions = before ++ action :: rest →
      ((start.run before).step action).workspace ≠ (start.run before).workspace →
        action = .flush ∧ ∃ s, (start.run before).store = ⟨some s, true⟩) ∧
    (∀ before rest s, actions = before ++ .flush :: rest → (start.run before).store = ⟨some s, true⟩ →
      (∃ f, (start.run before).workspace.flush (start.run before).store = .error f) ∧
          (start.run before).step .flush = start.run before ∨
        ((start.run before).step .flush).store = ⟨some s, false⟩ ∧
          (((start.run before).step .flush).workspace.get {}).2 = .ok s) ∧
    ∃ s, ((t.step .reload).workspace.get (t.step .reload).store).2 = .ok s ∧ s.Follows w.file l.flushed ∧
      ∀ s', t.store.cached = some s' → s'.Follows w.file (l.flushed ++ l.pending) := by
  intro start t l
  obtain ⟨s₀, hs₀⟩ := hfile
  have hstart : ({} : Ledger).Describes w.file start := describes_start hs₀
  have hend : l.Describes w.file t := describes_after hstart hform
  refine ⟨?_, fun s => get_of_clean hend, ?_, ?_, ?_⟩
  · rintro before since rfl hreload hbefore s hs
    have hat := describes_after hstart hform.before
    have hs : ((start.run before).run since).store.cached = some s := by
      rw [← State.run_append]
      exact hs
    exact follows_since hat (pending_after hbefore) hform.rest hreload hs
  · rintro before action rest - h
    exact State.step_workspace h
  · rintro before rest s rfl hstore
    have hat := describes_after hstart hform.before
    exact flush_of_dirty hat hstore (hform before rest rfl s (by rw [hstore]))
  · obtain ⟨s, hs, hfollows⟩ := hend.file
    exact ⟨s, get_fresh hs, hfollows, hend.store⟩

/-- A change of the level is written in capitals. The change after that is not, and a reload drops it. -/
theorem run_follows_changes_reloaded :
    let w : Workspace := ⟨⟨[]⟩, "config.yaml"⟩
    let actions : List Action := [.update {}, .update { logLevel := some "debug" }, .flush,
      .update { filterPrefix := some (.text "q") }, .reload, .get]
    let s : Settings := { standard with logLevel := .text "DEBUG" }
    let t := State.run ⟨w, {}⟩ actions
    ofFile .document w.file = .ok standard ∧ Restorable ⟨w, {}⟩ actions ∧
    Ledger.after {} ⟨w, {}⟩ actions = ⟨[{}, { logLevel := some "debug" }], []⟩ ∧
    t = ⟨⟨⟨[("config.yaml", Form.document.write s)]⟩, "config.yaml"⟩, some s, false⟩ ∧
    s.Follows w.file [{}, { logLevel := some "debug" }] ∧ (t.workspace.get {}).2 = .ok s := by
  intro w actions s t
  let w' : Workspace := ⟨⟨[("config.yaml", Form.document.write s)]⟩, "config.yaml"⟩
  have hfile : ofFile .document w.file = .ok standard := by rfl
  have hlevel : standard.apply { logLevel := some "debug" } = s := by
    have hcapital : Text.capitalize "debug" = "DEBUG" := by decide +kernel
    simp [apply, hcapital, s, standard]
  have hwrite : ∀ text, Folder.write ⟨[]⟩ "config.yaml" text = .ok ⟨[("config.yaml", text)]⟩ := by
    intro text
    rfl
  have hread : ofFile .document w'.file = .ok s :=
    ofFile_of_restores restores_debug (Folder.text?_of_write (hwrite _))
  have h₁ : State.step ⟨w, none, false⟩ (.update {}) = ⟨w, none, true⟩ := by rfl
  have h₂ : State.step ⟨w, none, true⟩ (.update { logLevel := some "debug" }) = ⟨w, some s, true⟩ := by
    rw [State.step_update_of_settings (s := standard) (by decide) (by rfl), hlevel]
  obtain ⟨hflushes, h₃⟩ := State.step_flush_of_write (t := ⟨w, some s, true⟩) rfl (hwrite _)
  have h₃ : State.step ⟨w, some s, true⟩ .flush = ⟨w', some s, false⟩ := h₃
  have h₄ : State.step ⟨w', some s, false⟩ (.update { filterPrefix := some (.text "q") }) =
      ⟨w', some { s with filterPrefix := .text "q" }, true⟩ := by rfl
  have h₅ : State.step ⟨w', some { s with filterPrefix := .text "q" }, true⟩ .reload =
      ⟨w', none, false⟩ := by
    rfl
  have h₆ : State.step ⟨w', none, false⟩ .get = ⟨w', some s, false⟩ := State.step_get_of_ofFile rfl hread
  have hrun : State.run ⟨w, {}⟩ actions = ⟨w', some s, false⟩ := by
    simp only [actions, State.run, List.foldl_cons, List.foldl_nil, h₁, h₂, h₃, h₄, h₅, h₆]
  have hform : Restorable ⟨w, {}⟩ actions := by
    have hfound : ∀ s', some s = some s' → Form.document.Restores s' := by
      rintro _ ⟨⟩
      exact restores_debug
    simp only [actions, restorable_cons_iff, h₁, h₂]
    exact ⟨by simp, by simp, fun _ => hfound, by simp, by simp, by simp, restorable_of_not_mem (by simp) _⟩
  have hledger : Ledger.after {} ⟨w, {}⟩ actions = ⟨[{}, { logLevel := some "debug" }], []⟩ := by
    simp only [actions, Ledger.after, Ledger.record, h₁, h₂, hflushes]
    rfl
  obtain ⟨-, hclean, -, -, -, -, -, hstore⟩ := run_follows_changes w actions ⟨_, hfile⟩ hform
  have hc : (State.run ⟨w, {}⟩ actions).store.cached = some s := by rw [hrun]
  have hfollows := hstore s hc
  rw [hledger] at hfollows
  exact ⟨hfile, hform, hledger, hrun, hfollows, hclean s hc (by rw [hrun])⟩

end Runs

end RecordFilter.Settings
