import Mathlib
import RecordFilter.Proofs.Command.Start
import RecordFilter.Proofs.Settings.Place

namespace RecordFilter

namespace Log

variable {name : String}

theorem capitalize_of_mem : ∀ name ∈ levels.map Prod.fst, Text.capitalize name = name := by
  decide +kernel

theorem capitalize_mem_levels (h : (levelOf? name).isSome) : Text.capitalize name ∈ levels.map Prod.fst := by
  obtain ⟨level, hlevel⟩ := Option.isSome_iff_exists.mp h
  obtain ⟨before, after, hlevels, -⟩ := List.lookup_eq_some_iff.mp hlevel
  rw [hlevels]
  simp

/-- Capitals stand for the level that the name stands for. -/
theorem levelOf?_capitalize (h : (levelOf? name).isSome) : levelOf? (Text.capitalize name) = levelOf? name := by
  rw [levelOf?, capitalize_of_mem _ (capitalize_mem_levels h)]
  rfl

theorem exists_configure_iff : (∃ setup, configure name = .ok setup) ↔ (levelOf? name).isSome := by
  unfold configure
  cases levelOf? name with
  | none => simp
  | some level => simp

end Log

namespace Settings

variable {s : Settings}

/-- Each field is as declared, and the level is one. -/
structure Usable (s : Settings) : Prop where
  declared : ∀ field : Field, field.Declared (s.value field)
  level : ∃ name, s.logLevel = .text name ∧ (Log.levelOf? name).isSome

theorem usable_standard : standard.Usable where
  declared := declared_standard
  level := ⟨_, rfl, by decide +kernel⟩

theorem apply_of_isNone {change : Change} (h : change.isNone = true) : s.apply change = s := by
  refine eq_of_value fun field => ?_
  rw [value_apply, isNone_iff.mp h field, Option.getD_none]

/-- The settings of a file that is missing, or that has each value as declared and a level, are usable. -/
theorem usable_of_ofFile {file : File} (hread : ofFile .document file = .ok s)
    (h : file.text = none ∨ s.Usable) :
    s.Usable := by
  rcases h with hmissing | husable
  · rw [ofFile, hmissing] at hread
    obtain rfl := Except.ok.inj hread
    exact usable_standard
  · exact husable

end Settings

namespace Command.Program

open Settings

section Options

variable {opts : Arguments} {s : Settings} {c : Settings.Change}

/-- The value that options give for a field, a level in capitals. -/
def given? (opts : Arguments) : Field → Option Value
  | .filterPrefix => (opts.value? "filter-prefix").map .text
  | .ignoreEmpty => (opts.switch? "ignore-empty").map .bool
  | .showHeader => (opts.switch? "show-header").map .bool
  | .logLevel => (opts.value? "log-level").map fun level => .text (Text.capitalize level)

/-- A level that is given is one. -/
def GivesLevel (opts : Arguments) : Prop := ∀ level ∈ opts.value? "log-level", (Log.levelOf? level).isSome

theorem changeOf_of_unknown {level : String} (h : opts.value? "log-level" = some level)
    (hlevel : Log.levelOf? level = none) :
    changeOf opts = .error (.badValue none ("Unknown log level: " ++ level)) := by
  simp only [changeOf, h, hlevel]
  rfl

theorem exists_changeOf (h : GivesLevel opts) :
    ∃ c, changeOf opts = .ok c ∧ ∀ field, c.value? field = given? opts field := by
  refine ⟨⟨(opts.value? "filter-prefix").map .text, (opts.switch? "ignore-empty").map .bool,
    (opts.switch? "show-header").map .bool, opts.value? "log-level"⟩, ?_, ?_⟩
  · cases hlevel : opts.value? "log-level" with
    | none => simp [changeOf, hlevel]
    | some level => simp [changeOf, hlevel, h level hlevel]
  · intro field
    cases field <;> rfl

/-- A level is accepted as a setting just if the program can log at it. -/
theorem exists_changeOf_iff :
    (∃ c, changeOf opts = .ok c) ↔
      ∀ level ∈ opts.value? "log-level", ∃ setup, Log.configure level = .ok setup := by
  simp only [Log.exists_configure_iff]
  constructor
  · intro hc level hlevel
    obtain ⟨c, hc⟩ := hc
    by_contra hnone
    rw [changeOf_of_unknown hlevel (by simpa using hnone)] at hc
    cases hc
  · intro h
    obtain ⟨c, hc, -⟩ := exists_changeOf h
    exact ⟨c, hc⟩

theorem declared_given (opts : Arguments) (field : Field) : ∀ v ∈ given? opts field, field.Declared v := by
  intro v hv
  cases field with
  | filterPrefix =>
    obtain ⟨text, -, rfl⟩ := Option.map_eq_some_iff.mp hv
    exact ⟨text, rfl⟩
  | ignoreEmpty =>
    obtain ⟨on, -, rfl⟩ := Option.map_eq_some_iff.mp hv
    exact ⟨on, rfl⟩
  | showHeader =>
    obtain ⟨on, -, rfl⟩ := Option.map_eq_some_iff.mp hv
    exact ⟨on, rfl⟩
  | logLevel =>
    obtain ⟨level, -, rfl⟩ := Option.map_eq_some_iff.mp hv
    exact ⟨_, rfl⟩

/-- The settings with the fields that options give, or as they are if a level among these is none. -/
def withGiven (s : Settings) (opts : Arguments) : Settings :=
  match changeOf opts with
  | .ok c => s.apply c
  | .error _ => s

theorem withGiven_of_changeOf (h : changeOf opts = .ok c) : withGiven s opts = s.apply c := by
  rw [withGiven, h]

theorem value_withGiven (h : GivesLevel opts) (s : Settings) (field : Field) :
    (withGiven s opts).value field = (given? opts field).getD (s.value field) := by
  obtain ⟨c, hc, hvalue⟩ := exists_changeOf h
  rw [withGiven_of_changeOf hc, value_apply, hvalue]

theorem exists_unknown_of_not_givesLevel (h : ¬ GivesLevel opts) :
    ∃ level, opts.value? "log-level" = some level ∧ Log.levelOf? level = none := by
  simpa [GivesLevel] using h

theorem withGiven_of_unknown {level : String} (h : opts.value? "log-level" = some level)
    (hlevel : Log.levelOf? level = none) (s : Settings) : withGiven s opts = s := by
  rw [withGiven, changeOf_of_unknown h hlevel]

theorem usable_withGiven (hs : s.Usable) (opts : Arguments) : (withGiven s opts).Usable := by
  by_cases h : GivesLevel opts
  · constructor
    · intro field
      rw [value_withGiven h]
      cases hgiven : given? opts field with
      | none => exact hs.declared field
      | some v => exact declared_given opts field v hgiven
    · have hvalue : (withGiven s opts).logLevel = (given? opts .logLevel).getD s.logLevel :=
        value_withGiven h s .logLevel
      rw [hvalue]
      -- What is kept is in capitals, not as it was looked at, so it has to be a level in this form too.
      cases hlevel : opts.value? "log-level" with
      | none => simpa [given?, hlevel] using hs.level
      | some level =>
        have hsome : (Log.levelOf? level).isSome := h level hlevel
        exact ⟨Text.capitalize level, by simp [given?, hlevel], by rwa [Log.levelOf?_capitalize hsome]⟩
  · obtain ⟨level, hlevel, hnone⟩ := exists_unknown_of_not_givesLevel h
    rw [withGiven_of_unknown hlevel hnone]
    exact hs

end Options

/-- A command line that sets something in the file at a path. What it gives for its own run to log at, if anything,
is a level. -/
structure SetCommand (path : String) where
  args : List String
  main : Arguments
  opts : Arguments
  chosen : ∃ rest, choose mainOptions mainCommands args = .ok (main, "config, c", rest) ∧
    ∃ sub rest', choose [] configCommands rest = .ok (sub, "set, s", rest') ∧
      Arguments.read setOptions true rest' = .ok opts
  config : main.value? "config" = some path
  level : ∀ name ∈ main.value? "log-level", name = "" ∨ (Log.levelOf? name).isSome
  words : opts.words = []

/-- The file at a path in a folder. -/
def fileAt (folder : Folder) (path : String) : File := ⟨Folder.normal path, folder.text? path⟩

/-- A folder has usable settings at a path. -/
structure Holds (folder : Folder) (path : String) (s : Settings) : Prop where
  read : ofFile .document (fileAt folder path) = .ok s
  usable : s.Usable

/-- A program with such arguments reads its settings anew, from a path in a folder. -/
structure StartsAt (p : Program) (a : Arguments) (folder : Folder) (path : String) : Prop where
  workspace : (p.pointed a).workspace = ⟨folder, Folder.normal path⟩
  store : (p.pointed a).store = {}

variable {p : Program} {path : String} {folder : Folder} {a : Arguments} {s : Settings}

theorem file_normal (folder : Folder) (path : String) :
    Workspace.file ⟨folder, Folder.normal path⟩ = fileAt folder path := by
  rw [Workspace.file, fileAt, Folder.text?_normal]

theorem startsAt_of_config (h : a.value? "config" = some path) (p : Program) :
    p.StartsAt a p.workspace.folder path where
  workspace := by rw [pointed, h]
  store := by rw [pointed, h]

section Starting

theorem file_of_startsAt (h : p.StartsAt a folder path) : (p.pointed a).workspace.file = fileAt folder path := by
  rw [h.workspace, file_normal]

/-- The settings at the path are loaded, and nothing is dirty. -/
theorem start_of_startsAt (h : p.StartsAt a folder path) (hread : ofFile .document (fileAt folder path) = .ok s) :
    (p.start a).1.workspace = ⟨folder, Folder.normal path⟩ ∧ (p.start a).1.store = ⟨some s, false⟩ := by
  have hsettings : (p.pointed a).settings = ({ p.pointed a with store := ⟨some s, false⟩ }, .ok s) := by
    simp [settings, Workspace.get, Store.get, Store.settings, h.store, file_of_startsAt h, hread,
      Except.mapError]
  rw [start_of_settings hsettings, setOut]
  cases logSetup (a.value? "log-level") s with
  | error r => exact ⟨h.workspace, rfl⟩
  | ok log => exact ⟨h.workspace, rfl⟩

theorem start_of_logSetup {log : Log.Setup} (h : p.StartsAt a folder path)
    (hread : ofFile .document (fileAt folder path) = .ok s) (hlog : logSetup (a.value? "log-level") s = .ok log) :
    (p.start a).2 = .ok () ∧ (p.start a).1.log = log := by
  have hfresh : (p.pointed a).store.cached = none := by rw [h.store]
  have hread : ofFile .document (p.pointed a).workspace.file = .ok s := by
    rw [file_of_startsAt h]
    exact hread
  obtain ⟨-, -, hresult, hsetup⟩ := start_of_ofFile hfresh hread
  rw [hresult, hsetup, hlog]
  exact ⟨rfl, rfl⟩

theorem write_start (h : p.StartsAt a folder path) (hread : ofFile .document (fileAt folder path) = .ok s)
    (text : String) :
    (p.start a).1.workspace.folder.write (p.start a).1.workspace.path text = folder.write path text := by
  rw [(start_of_startsAt h hread).1, Folder.write_normal]

/-- Without a level of its own a program logs at the one of usable settings. -/
theorem start_of_holds (hfound : Holds folder path s) (h : p.StartsAt a folder path)
    (hgiven : ∀ level ∈ a.value? "log-level", level = "") :
    ∃ name log, s.logLevel = .text name ∧ Log.configure name = .ok log ∧
      (p.start a).2 = .ok () ∧ (p.start a).1.log = log := by
  obtain ⟨name, hheld, hlevel⟩ := hfound.usable.level
  obtain ⟨log, hlog⟩ := Log.exists_configure_iff.mpr hlevel
  have hname : levelName (a.value? "log-level") s.logLevel = .ok name := by
    rw [hheld]
    cases hvalue : a.value? "log-level" with
    | none => rfl
    | some level =>
      rw [hgiven level hvalue]
      rfl
  have hsetup : logSetup (a.value? "log-level") s = .ok log := by
    rw [logSetup_of_name hname, hlog]
    rfl
  exact ⟨name, log, hheld, hlog, start_of_logSetup h hfound.read hsetup⟩

end Starting

section Changing

variable {change : Settings.Change} {f : Fault}

/-- With settings loaded an update does not fail, and what gives nothing leaves them. -/
theorem update_loaded (w : Workspace) (s : Settings) (change : Settings.Change) :
    w.update change ⟨some s, false⟩ = (⟨some (s.apply change), true⟩, .ok ()) := by
  by_cases hnone : change.isNone = true
  · rw [Workspace.update, Store.update, if_pos hnone, apply_of_isNone hnone]
  · rw [Workspace.update, Store.update, if_neg hnone]
    rfl

/-- A change of loaded settings is written at once, and then they are shown. -/
theorem change_of_write (hstore : p.store = ⟨some s, false⟩)
    (hwrite : p.workspace.folder.write p.workspace.path (Form.document.write (s.apply change)) = .ok folder) :
    p.change change =
      ({ p with workspace := ⟨folder, p.workspace.path⟩, store := ⟨some (s.apply change), false⟩ },
        (Page.settingsPage p.workspace.path (s.apply change)).mapError .fault) := by
  have hflush : p.workspace.flush ⟨some (s.apply change), true⟩ =
      .ok (⟨folder, p.workspace.path⟩, ⟨some (s.apply change), false⟩) := by
    simp [Workspace.flush, Store.pending, Store.written, hwrite, Except.map]
  rw [Program.change, hstore, update_loaded]
  simp only [hflush]
  rfl

theorem change_of_fault (hstore : p.store = ⟨some s, false⟩)
    (hwrite : p.workspace.folder.write p.workspace.path (Form.document.write (s.apply change)) = .error f) :
    p.change change = ({ p with store := ⟨some (s.apply change), true⟩ }, .error (.fault f)) := by
  have hflush : p.workspace.flush ⟨some (s.apply change), true⟩ = .error f := by
    simp [Workspace.flush, Store.pending, hwrite, Except.map]
  rw [Program.change, hstore, update_loaded]
  simp only [hflush]

end Changing

section Commands

variable {c : SetCommand path}

/-- A command starts at the level of usable settings, or at the one that it gives for its own run. -/
theorem start_command (h : Holds p.workspace.folder path s) (c : SetCommand path) :
    (p.start c.main).2 = .ok () := by
  have hat := startsAt_of_config c.config p
  by_cases hgiven : ∀ level ∈ c.main.value? "log-level", level = ""
  · obtain ⟨-, -, -, -, hok, -⟩ := start_of_holds h hat hgiven
    exact hok
  · obtain ⟨name, hname, hne⟩ : ∃ name, c.main.value? "log-level" = some name ∧ name ≠ "" := by
      simpa using hgiven
    obtain ⟨level, hlevel⟩ := Option.isSome_iff_exists.mp ((c.level name hname).resolve_left hne)
    have hused : levelName (c.main.value? "log-level") s.logLevel = .ok name := by
      rw [hname]
      exact levelName_of_ne hne _
    exact (start_of_logSetup hat h.read (logSetup_of_level hused hlevel)).1

/-- Once it has started, a command makes the change that its options ask for. -/
theorem run_of_start (hstart : (p.start c.main).2 = .ok ()) :
    p.run c.args =
      match changeOf c.opts with
      | .error r => ((p.start c.main).1, .error r)
      | .ok change => (p.start c.main).1.change change := by
  obtain ⟨rest, hmain, sub, rest', hset, hopts⟩ := c.chosen
  have hpair : p.start c.main = ((p.start c.main).1, .ok ()) := Prod.ext rfl hstart
  have hconfig : config (p.start c.main).1 rest =
      match changeOf c.opts with
      | .error r => ((p.start c.main).1, .error r)
      | .ok change => (p.start c.main).1.change change := by
    cases hchange : changeOf c.opts <;> simp [config, hset, hopts, c.words, hchange]
  rw [← hconfig, run, hmain]
  simp only
  rw [hpair]
  rfl

/-- A level that is none is refused, and all is as the start of the command left it. -/
theorem run_of_unknown {level : String} (h : Holds p.workspace.folder path s)
    (hgiven : c.opts.value? "log-level" = some level) (hlevel : Log.levelOf? level = none) :
    p.run c.args = ((p.start c.main).1, .error (.badValue none ("Unknown log level: " ++ level))) := by
  rw [run_of_start (start_command h c), changeOf_of_unknown hgiven hlevel]

/-- What a command leaves that sets something: its settings are in the file and loaded, other files are as they
were, and the settings are shown. -/
structure Sets (before : Folder) (path : String) (s : Settings) (after : Outcome Page.Lines) : Prop where
  text : after.1.workspace.folder.text? path = some (Form.document.write s)
  others : ∀ other, Folder.normal other ≠ Folder.normal path →
    after.1.workspace.folder.text? other = before.text? other
  store : after.1.store = ⟨some s, false⟩
  shown : after.2 = (Page.settingsPage (Folder.normal path) s).mapError .fault

theorem run_of_takes (h : Holds p.workspace.folder path s) (hgives : GivesLevel c.opts)
    (htakes : p.workspace.folder.Takes path) :
    Sets p.workspace.folder path (withGiven s c.opts) (p.run c.args) ∧
      (p.run c.args).1.workspace.folder.Takes path := by
  have hat := startsAt_of_config c.config p
  obtain ⟨change, hchange, -⟩ := exists_changeOf hgives
  obtain ⟨hworkspace, hstore⟩ := start_of_startsAt hat h.read
  obtain ⟨folder, hwrite⟩ : ∃ folder,
      p.workspace.folder.write path (Form.document.write (s.apply change)) = .ok folder :=
    Folder.exists_write_iff.mpr htakes
  have hstarted := (write_start hat h.read _).trans hwrite
  rw [withGiven_of_changeOf hchange, run_of_start (start_command h c), hchange]
  simp only
  rw [change_of_write hstore hstarted, hworkspace]
  exact ⟨⟨Folder.text?_of_write hwrite, fun other => Folder.text?_of_write_of_ne hwrite, rfl, rfl⟩,
    Folder.takes_written hwrite⟩

/-- Where the file cannot be written, a command that sets something fails and the folder stays. -/
theorem run_of_not_takes (h : Holds p.workspace.folder path s) (hgives : GivesLevel c.opts)
    (htakes : ¬ p.workspace.folder.Takes path) :
    (∃ f, (p.run c.args).2 = .error (.fault f)) ∧ (p.run c.args).1.workspace.folder = p.workspace.folder := by
  have hat := startsAt_of_config c.config p
  obtain ⟨change, hchange, -⟩ := exists_changeOf hgives
  obtain ⟨hworkspace, hstore⟩ := start_of_startsAt hat h.read
  cases hwrite : p.workspace.folder.write path (Form.document.write (s.apply change)) with
  | ok folder => exact absurd (Folder.takes_of_write hwrite) htakes
  | error f =>
    have hstarted := (write_start hat h.read _).trans hwrite
    rw [run_of_start (start_command h c), hchange]
    simp only
    rw [change_of_fault hstore hstarted, hworkspace]
    exact ⟨⟨f, rfl⟩, rfl⟩

/-- One command keeps usable settings at the path, where what it writes is read back. -/
theorem holds_run (h : Holds p.workspace.folder path s) (htakes : p.workspace.folder.Takes path)
    (hform : Form.document.Restores (withGiven s c.opts)) :
    Holds (p.run c.args).1.workspace.folder path (withGiven s c.opts) ∧
      (p.run c.args).1.workspace.folder.Takes path := by
  by_cases hgives : GivesLevel c.opts
  · obtain ⟨hsets, hagain⟩ := run_of_takes h hgives htakes
    exact ⟨⟨ofFile_of_restores hform hsets.text, usable_withGiven h.usable c.opts⟩, hagain⟩
  · obtain ⟨level, hlevel, hnone⟩ := exists_unknown_of_not_givesLevel hgives
    obtain ⟨hworkspace, -⟩ := start_of_startsAt (startsAt_of_config c.config p) h.read
    rw [run_of_unknown h hlevel hnone, hworkspace, withGiven_of_unknown hlevel hnone]
    exact ⟨h, htakes⟩

theorem folder_run_of_not_takes (h : Holds p.workspace.folder path s) (htakes : ¬ p.workspace.folder.Takes path)
    (c : SetCommand path) :
    (p.run c.args).1.workspace.folder = p.workspace.folder := by
  by_cases hgives : GivesLevel c.opts
  · exact (run_of_not_takes h hgives htakes).2
  · obtain ⟨level, hlevel, hnone⟩ := exists_unknown_of_not_givesLevel hgives
    obtain ⟨hworkspace, -⟩ := start_of_startsAt (startsAt_of_config c.config p) h.read
    rw [run_of_unknown h hlevel hnone, hworkspace]

end Commands

section Runs

/-- A program on another folder. -/
def within (p : Program) (folder : Folder) : Program := { p with workspace := { p.workspace with folder } }

theorem folder_within (p : Program) (folder : Folder) : (p.within folder).workspace.folder = folder := rfl

theorem startsAt_within (h : a.value? "config" = some path) (p : Program) (folder : Folder) :
    (p.within folder).StartsAt a folder path := startsAt_of_config h _

/-- The folder after commands, each of them in any program: a new one, or the one before with what it has loaded. -/
def folderAfter (folder : Folder) (commands : List (Program × SetCommand path)) : Folder :=
  commands.foldl (fun folder c => ((c.1.within folder).run c.2.args).1.workspace.folder) folder

/-- The settings after commands; a refused one leaves them. -/
def settingsAfter (s : Settings) (commands : List (Program × SetCommand path)) : Settings :=
  commands.foldl (fun s c => withGiven s c.2.opts) s

variable {commands : List (Program × SetCommand path)}

theorem holds_after (h : Holds folder path s) (htakes : folder.Takes path)
    (hform : ∀ before, before ≠ [] → before <+: commands → Form.document.Restores (settingsAfter s before)) :
    Holds (folderAfter folder commands) path (settingsAfter s commands) ∧
      (folderAfter folder commands).Takes path := by
  induction commands generalizing folder s with
  | nil => exact ⟨h, htakes⟩
  | cons c rest ih =>
    have hone : Form.document.Restores (withGiven s c.2.opts) := hform [c] (by simp) (by simp)
    have hstep := holds_run (p := c.1.within folder) h htakes hone
    exact ih hstep.1 hstep.2 fun before _ hbefore =>
      hform (c :: before) (by simp) (List.cons_prefix_cons.mpr ⟨rfl, hbefore⟩)

theorem folderAfter_of_not_takes (h : Holds folder path s) (htakes : ¬ folder.Takes path)
    (commands : List (Program × SetCommand path)) :
    folderAfter folder commands = folder := by
  induction commands with
  | nil => rfl
  | cons c rest ih =>
    have hkept : ((c.1.within folder).run c.2.args).1.workspace.folder = folder :=
      folder_run_of_not_takes h htakes c.2
    rw [folderAfter, List.foldl_cons, hkept]
    exact ih

/-- Where a folder holds settings at a path, every start without a level of its own goes well and logs at theirs. -/
def LogsAt (folder : Folder) (path : String) (s : Settings) : Prop :=
  ∀ (p : Program) (a : Arguments), p.StartsAt a folder path → (∀ level ∈ a.value? "log-level", level = "") →
    ∃ name log, s.logLevel = .text name ∧ Log.configure name = .ok log ∧
      (p.start a).2 = .ok () ∧ (p.start a).1.log = log

/-- What a command does on a folder that holds settings at its path: it starts, with these loaded. It is refused for a
level that is none, and leaves all as it was when it had started; any other changes just the fields that it gives and
writes the file, or fails where no file can be written. A level is accepted just if the program can log at it. -/
structure Obeys (folder : Folder) (s : Settings) (p : Program) (c : SetCommand path) : Prop where
  starts : (p.start c.main).2 = .ok ()
  untouched : (p.start c.main).1.workspace.folder = folder
  loaded : (p.start c.main).1.store = ⟨some s, false⟩
  refused : ∀ level, c.opts.value? "log-level" = some level → Log.levelOf? level = none →
    p.run c.args = ((p.start c.main).1, .error (.badValue none ("Unknown log level: " ++ level)))
  given : GivesLevel c.opts → ∃ s', (∀ field, s'.value field = (given? c.opts field).getD (s.value field)) ∧
    (folder.Takes path → Sets folder path s' (p.run c.args)) ∧
    (¬ folder.Takes path →
      (∃ f, (p.run c.args).2 = .error (.fault f)) ∧ (p.run c.args).1.workspace.folder = folder)
  accepted : (∃ change, changeOf c.opts = .ok change) ↔
    ∀ level ∈ c.opts.value? "log-level", ∃ log, Log.configure level = .ok log

theorem obeys (h : Holds p.workspace.folder path s) (c : SetCommand path) :
    Obeys p.workspace.folder s p c := by
  obtain ⟨hworkspace, hstore⟩ := start_of_startsAt (startsAt_of_config c.config p) h.read
  refine ⟨start_command h c, by rw [hworkspace], hstore, fun level => run_of_unknown h, fun hgives => ?_,
    exists_changeOf_iff⟩
  exact ⟨withGiven s c.opts, value_withGiven hgives s, fun htakes => (run_of_takes h hgives htakes).1,
    fun htakes => run_of_not_takes h hgives htakes⟩

/-- What commands leave that began on a folder with settings at the path: usable settings in the same place, as the
commands set them if a file can be written there, from which every program starts and the next command goes on. -/
structure Unlocked (start : Folder) (s₀ : Settings) (commands : List (Program × SetCommand path)) (s : Settings) :
    Prop where
  read : ofFile .document (fileAt (folderAfter start commands) path) = .ok s
  usable : s.Usable
  taken : start.Takes path → s = settingsAfter s₀ commands
  kept : ¬ start.Takes path → folderAfter start commands = start
  takes_iff : (folderAfter start commands).Takes path ↔ start.Takes path
  logs : LogsAt (folderAfter start commands) path s
  next : ∀ (p : Program) (c : SetCommand path), p.workspace.folder = folderAfter start commands →
    Obeys (folderAfter start commands) s p c

/-- Whatever commands that set something ran on a file that is missing or has usable settings, where what they write
is read back, they cannot keep later ones from starting. -/
theorem sets_never_lock_out (start : Folder) (path : String) (commands : List (Program × SetCommand path))
    (s₀ : Settings) (hread : ofFile .document (fileAt start path) = .ok s₀)
    (hfile : start.text? path = none ∨ s₀.Usable)
    (hform : ∀ before, before ≠ [] → before <+: commands → Form.document.Restores (settingsAfter s₀ before)) :
    ∃ s, Unlocked start s₀ commands s := by
  have hstart : Holds start path s₀ := ⟨hread, usable_of_ofFile hread hfile⟩
  obtain ⟨s, hs, htaken, hkept, htakes⟩ : ∃ s, Holds (folderAfter start commands) path s ∧
      (start.Takes path → s = settingsAfter s₀ commands) ∧
      (¬ start.Takes path → folderAfter start commands = start) ∧
      ((folderAfter start commands).Takes path ↔ start.Takes path) := by
    by_cases h : start.Takes path
    · obtain ⟨hend, hagain⟩ := holds_after hstart h hform
      exact ⟨_, hend, fun _ => rfl, absurd h, iff_of_true hagain h⟩
    · have hsame : folderAfter start commands = start := folderAfter_of_not_takes hstart h commands
      rw [hsame]
      exact ⟨s₀, hstart, fun htakes => absurd htakes h, fun _ => rfl, Iff.rfl⟩
  refine ⟨s, hs.read, hs.usable, htaken, hkept, htakes, fun p a => start_of_holds hs, fun p c hp => ?_⟩
  rw [← hp]
  exact obeys (hp ▸ hs) c

/-- The command that sets the level in `config.yaml`. -/
def setLevel (level : String) : SetCommand "config.yaml" where
  args := ["--config", "config.yaml", "config", "set", "--log-level", level]
  main := ⟨[.value "config" "config.yaml"], ["config", "set", "--log-level", level]⟩
  opts := ⟨[.value "log-level" level], []⟩
  chosen := ⟨_, by rfl, _, _, by rfl, by rfl⟩
  config := by rfl
  level := fun _ hnone => by cases hnone
  words := rfl

theorem givesLevel_setLevel {level : String} (h : (Log.levelOf? level).isSome) :
    GivesLevel (setLevel level).opts := by
  intro name hname
  obtain rfl : level = name := Option.some.inj hname
  exact h

theorem withGiven_setLevel {level : String} (h : (Log.levelOf? level).isSome) (s : Settings) :
    withGiven s (setLevel level).opts = { s with logLevel := .text (Text.capitalize level) } := by
  refine eq_of_value fun field => ?_
  rw [value_withGiven (givesLevel_setLevel h)]
  cases field <;> rfl

/-- Only the first of two commands counts, when the level of the second is none. -/
theorem settingsAfter_debug (p : Program) {before : List (Program × SetCommand "config.yaml")} (hne : before ≠ [])
    (h : before <+: [(p, setLevel "debug"), (p, setLevel "loud")]) :
    settingsAfter standard before = { standard with logLevel := .text "DEBUG" } := by
  have hcapital : Text.capitalize "debug" = "DEBUG" := by decide +kernel
  have hlevel : (Log.levelOf? "debug").isSome := by decide +kernel
  have hdebug : settingsAfter standard [(p, setLevel "debug")] = { standard with logLevel := .text "DEBUG" } := by
    rw [← hcapital]
    exact withGiven_setLevel hlevel standard
  have hloud : Log.levelOf? "loud" = none := by decide +kernel
  rcases List.prefix_cons_iff.mp h with hnil | ⟨rest, hcons, hrest⟩
  · exact absurd hnil hne
  · rcases List.prefix_cons_iff.mp hrest with rfl | ⟨rest', rfl, hrest'⟩
    · rw [hcons, hdebug]
    · obtain rfl := List.prefix_nil.mp hrest'
      rw [hcons, ← hdebug]
      have hgiven : (setLevel "loud").opts.value? "log-level" = some "loud" := by rfl
      exact withGiven_of_unknown hgiven hloud _

/-- A level is set where there was no file, in capitals; a text that is none does not get there, neither then nor
later. -/
theorem sets_never_lock_out_debug :
    let p : Program := { workspace := ⟨⟨[]⟩, "settings.yaml"⟩ }
    let commands := [(p, setLevel "debug"), (p, setLevel "loud")]
    let folder := folderAfter ⟨[]⟩ commands
    let main : Arguments := ⟨[.value "config" "config.yaml"], ["parse", "EQS_name"]⟩
    ofFile .document (fileAt ⟨[]⟩ "config.yaml") = .ok standard ∧ Folder.text? ⟨[]⟩ "config.yaml" = none ∧
    ofFile .document (fileAt folder "config.yaml") = .ok { standard with logLevel := .text "DEBUG" } ∧
    ((p.within folder).start main).2 = .ok () ∧ ((p.within folder).start main).1.log = ⟨10, 1, false⟩ ∧
    ((p.within folder).run (setLevel "loud").args).2 = .error (.badValue none "Unknown log level: loud") ∧
    Sets folder "config.yaml" { standard with logLevel := .text "INFO" }
      ((p.within folder).run (setLevel "info").args) := by
  intro p commands folder main
  have hread : ofFile .document (fileAt ⟨[]⟩ "config.yaml") = .ok standard := by rfl
  have hmissing : Folder.text? ⟨[]⟩ "config.yaml" = none := by rfl
  have htakes : Folder.Takes ⟨[]⟩ "config.yaml" :=
    Folder.takes_of_write (show Folder.write ⟨[]⟩ "config.yaml" "" = .ok ⟨[("config.yaml", "")]⟩ by rfl)
  have hform : ∀ before, before ≠ [] → before <+: commands →
      Form.document.Restores (settingsAfter standard before) := by
    intro before hne hbefore
    rw [settingsAfter_debug p hne hbefore]
    exact restores_debug
  obtain ⟨s, hs⟩ := sets_never_lock_out ⟨[]⟩ "config.yaml" commands standard hread (.inl hmissing) hform
  have hsettings : s = { standard with logLevel := .text "DEBUG" } := by
    rw [hs.taken htakes]
    exact settingsAfter_debug p (by simp [commands]) List.prefix_rfl
  have hstart : (p.within folder).StartsAt main folder "config.yaml" := startsAt_within (by rfl) p folder
  obtain ⟨name, log, hname, hlog, hok, hlogged⟩ := hs.logs _ main hstart (fun _ hnone => by cases hnone)
  have hrefused := (hs.next (p.within folder) (setLevel "loud") (folder_within p folder)).refused
  have hwritten := (hs.next (p.within folder) (setLevel "info") (folder_within p folder)).given
  have hdebug : Log.configure "DEBUG" = .ok ⟨10, 1, false⟩ := by decide +kernel
  have hloud : Log.levelOf? "loud" = none := by decide +kernel
  have hinfo : (Log.levelOf? "info").isSome := by decide +kernel
  have hcapital : Text.capitalize "info" = "INFO" := by decide +kernel
  obtain ⟨s', hs', hsets, -⟩ := hwritten (givesLevel_setLevel hinfo)
  have hchanged : s' = { standard with logLevel := .text "INFO" } := by
    refine eq_of_value fun field => ?_
    rw [hs', hsettings, ← hcapital]
    cases field <;> rfl
  subst hsettings hchanged
  obtain rfl : name = "DEBUG" := (Value.text.inj hname).symm
  rw [hdebug] at hlog
  obtain rfl := Except.ok.inj hlog
  refine ⟨hread, hmissing, hs.read, hok, hlogged, ?_, hsets (hs.takes_iff.mpr htakes)⟩
  rw [hrefused "loud" (by rfl) hloud]
  rfl

end Runs

end Command.Program

end RecordFilter
