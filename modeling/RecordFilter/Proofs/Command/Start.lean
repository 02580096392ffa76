import Mathlib
import RecordFilter.Command.Program
import RecordFilter.Proofs.Fallible
import RecordFilter.Proofs.Settings.Written

namespace RecordFilter

namespace Settings

/-- The kind of value that a field is declared with. -/
def Field.Declared (field : Field) (v : Value) : Prop :=
  match field with
  | .filterPrefix | .logLevel => ∃ s, v = .text s
  | .ignoreEmpty | .showHeader => ∃ b, v = .bool b

/-- The file is missing, empty or a mapping. -/
def File.HoldsEntries (file : File) : Prop :=
  ∀ text ∈ file.text, Document.load text = .ok .null ∨ ∃ es, Document.load text = .ok (.map es)

/-- The last entry of a file under the name of a field. -/
def lastHeld? (file : File) (field : Field) : Option Value :=
  ((entriesIn .document file).filterMap field.valueIn?).getLast?

variable {file : File} {field : Field}

theorem exists_ofFile_iff : (∃ s, ofFile .document file = .ok s) ↔ file.HoldsEntries := by
  obtain ⟨path, text⟩ := file
  cases text with
  | none => simp [ofFile, File.HoldsEntries]
  | some text =>
    simp only [ofFile, File.HoldsEntries, Option.mem_some_iff, forall_eq', read_document]
    cases Document.load text with
    | error f => simp
    | ok v => cases v <;> simp

theorem declared_standard (field : Field) : field.Declared (standard.value field) := by
  cases field with
  | filterPrefix => exact ⟨_, rfl⟩
  | ignoreEmpty => exact ⟨_, rfl⟩
  | showHeader => exact ⟨_, rfl⟩
  | logLevel => exact ⟨_, rfl⟩

/-- A field is as declared unless the file has another kind of value for it. -/
theorem declared_heldIn_iff :
    field.Declared (heldIn .document file field) ↔ ∀ v ∈ lastHeld? file field, field.Declared v := by
  have hheld : heldIn .document file field = (lastHeld? file field).getD (standard.value field) := rfl
  rw [hheld]
  cases lastHeld? file field with
  | none => simp [declared_standard]
  | some v => simp

end Settings

namespace Command.Program

open Fallible Settings

/-- The program on the file that its arguments name, with nothing loaded, or else as it was. -/
def pointed (p : Program) (a : Arguments) : Program :=
  match a.value? "config" with
  | some path => { p with workspace := { p.workspace with path := Folder.normal path }, store := {} }
  | none => p

/-- The name of the level to log at; an empty one that is given counts as none. -/
def levelName (given : Option String) (held : Value) : Except Refusal String :=
  match given with
  | none | some "" => levelText held
  | some name => .ok name

variable {p : Program} {a : Arguments} {s : Settings} {r : Refusal}

theorem levelName_of_ne {name : String} (h : name ≠ "") (held : Value) :
    levelName (some name) held = .ok name := by
  unfold levelName
  split <;> simp_all

theorem levelText_eq_error_iff {held : Value} :
    levelText held = .error r ↔
      r = .fault .noSuchPart ∧ (∀ text, held ≠ .text text) ∧ ∀ bs, held ≠ .bytes bs := by
  cases held <;> simp [levelText, eq_comm]

/-- There is no name where no option gives one and the settings hold neither a text nor bytes for it. -/
theorem levelName_eq_error_iff {given : Option String} {held : Value} :
    levelName given held = .error r ↔
      r = .fault .noSuchPart ∧ (∀ name ∈ given, name = "") ∧ (∀ text, held ≠ .text text) ∧
        ∀ bs, held ≠ .bytes bs := by
  cases given with
  | none => simp [levelName, levelText_eq_error_iff]
  | some name =>
    by_cases hname : name = ""
    · simp [levelName, hname, levelText_eq_error_iff]
    · simp [levelName_of_ne hname, hname]

theorem logSetup_eq_bind (given : Option String) (s : Settings) :
    logSetup given s = levelName given s.logLevel >>= fun name =>
      (Log.configure name).mapError fun v => .badValue (some "--log-level") v.message := by
  unfold logSetup levelName
  split <;> simp_all

section Names

variable {given : Option String} {name : String}

theorem logSetup_of_name (h : levelName given s.logLevel = .ok name) :
    logSetup given s = (Log.configure name).mapError fun v => .badValue (some "--log-level") v.message := by
  rw [logSetup_eq_bind, h]
  rfl

theorem logSetup_of_level {level : Nat} (h : levelName given s.logLevel = .ok name)
    (hlevel : Log.levelOf? name = some level) : logSetup given s = .ok ⟨level, 1, false⟩ := by
  rw [logSetup_of_name h, Log.configure, hlevel]
  rfl

theorem logSetup_of_unknown (h : levelName given s.logLevel = .ok name) (hlevel : Log.levelOf? name = none) :
    logSetup given s = .error (.badValue (some "--log-level") ("Unknown log level: " ++ name)) := by
  rw [logSetup_of_name h, Log.configure, hlevel]
  rfl

/-- A name that is no level is refused, so only a lack of any name is a fault. -/
theorem logSetup_eq_fault_iff :
    logSetup given s = .error (.fault .noSuchPart) ↔
      (∀ name ∈ given, name = "") ∧ (∀ text, s.logLevel ≠ .text text) ∧ ∀ bs, s.logLevel ≠ .bytes bs := by
  have hrefused : ∀ name,
      ¬ (Log.configure name).mapError (fun v => Refusal.badValue (some "--log-level") v.message) =
        .error (.fault .noSuchPart) := by
    intro name h
    obtain ⟨v, -, hv⟩ := mapError_eq_error.mp h
    cases hv
  rw [logSetup_eq_bind, bind_eq_error, levelName_eq_error_iff]
  simp [hrefused]

end Names

/-- What a program does with the settings once it has them. -/
def setOut (p : Program) (a : Arguments) (s : Settings) : Outcome Unit :=
  let p := { p with showsHeader := s.showHeader.isTruthy && !(a.switch? "no-header").getD false }
  match logSetup (a.value? "log-level") s with
  | .error r => (p, .error r)
  | .ok log => ({ p with log }, .ok ())

theorem start_of_settings {q : Program} (h : (p.pointed a).settings = (q, .ok s)) : p.start a = q.setOut a s := by
  unfold pointed at h
  unfold start setOut
  cases hpath : a.value? "config" with
  | none =>
    simp only [hpath] at h
    cases hsetup : logSetup (a.value? "log-level") s <;> simp only [h, hsetup]
  | some path =>
    simp only [hpath] at h
    cases hsetup : logSetup (a.value? "log-level") s <;> simp only [h, hsetup]

theorem log_pointed (p : Program) (a : Arguments) : (p.pointed a).log = p.log := by
  unfold pointed
  split <;> rfl

/-- With settings that can be read, the program keeps them, shows headers as they say unless told not to, and
logs as the level comes out. -/
theorem start_of_ofFile (hfresh : (p.pointed a).store.cached = none)
    (hread : ofFile .document (p.pointed a).workspace.file = .ok s) :
    (p.start a).1.store.cached = some s ∧
      (p.start a).1.showsHeader = (s.showHeader.isTruthy && !(a.switch? "no-header").getD false) ∧
      (p.start a).2 = (logSetup (a.value? "log-level") s).map (fun _ => ()) ∧
      (p.start a).1.log = (logSetup (a.value? "log-level") s).toOption.getD p.log := by
  have hsettings : (p.pointed a).settings =
      ({ p.pointed a with store := { (p.pointed a).store with cached := some s } }, .ok s) := by
    simp [settings, Workspace.get, Store.get, Store.settings, hfresh, hread, Except.mapError]
  rw [start_of_settings hsettings, setOut]
  cases hsetup : logSetup (a.value? "log-level") s with
  | error r => exact ⟨rfl, rfl, rfl, log_pointed p a⟩
  | ok log => exact ⟨rfl, rfl, rfl, rfl⟩

/-- The settings of a file that is missing, empty or a mapping are handed on as it has them, of whatever kind;
each is as declared unless its last entry is not. The program then shows headers as told and logs at the level
named, or refuses a name that is none. It breaks off exactly when no level is given and the file holds something
else than a text, or bytes, for it. -/
theorem start_takes_settings (p : Program) (a : Arguments) (hfresh : (p.pointed a).store.cached = none)
    (hfile : (p.pointed a).workspace.file.HoldsEntries) :
    let file := (p.pointed a).workspace.file
    let held := heldIn .document file .logLevel
    let given := a.value? "log-level"
    (∃ s, (p.start a).1.store.cached = some s ∧ ∀ field, s.value field = heldIn .document file field ∧
      (field.Declared (s.value field) ↔ ∀ v ∈ lastHeld? file field, field.Declared v)) ∧
    (p.start a).1.showsHeader =
      ((heldIn .document file .showHeader).isTruthy && !(a.switch? "no-header").getD false) ∧
    (∀ name level, levelName given held = .ok name → Log.levelOf? name = some level →
      (p.start a).2 = .ok () ∧ (p.start a).1.log = ⟨level, 1, false⟩) ∧
    (∀ name, levelName given held = .ok name → Log.levelOf? name = none →
      (p.start a).2 = .error (.badValue (some "--log-level") ("Unknown log level: " ++ name)) ∧
        (p.start a).1.log = p.log) ∧
    ((p.start a).2 = .error (.fault .noSuchPart) ↔
      (∀ name ∈ given, name = "") ∧ (∀ text, held ≠ .text text) ∧ ∀ bs, held ≠ .bytes bs) := by
  intro file held given
  obtain ⟨s, hread⟩ := exists_ofFile_iff.mpr hfile
  have hvalue : ∀ field, s.value field = heldIn .document file field := value_of_ofFile hread
  have hlevel : s.logLevel = held := hvalue .logLevel
  obtain ⟨hcached, hheader, hresult, hlog⟩ := start_of_ofFile hfresh hread
  refine ⟨⟨s, hcached, fun field => ⟨hvalue field, ?_⟩⟩, ?_, ?_, ?_, ?_⟩
  · rw [hvalue field, declared_heldIn_iff]
  · rw [hheader, ← hvalue .showHeader]
    rfl
  · intro name level h hlevelOf
    rw [hresult, hlog, logSetup_of_level (hlevel ▸ h) hlevelOf]
    exact ⟨rfl, rfl⟩
  · intro name h hlevelOf
    rw [hresult, hlog, logSetup_of_unknown (hlevel ▸ h) hlevelOf]
    exact ⟨rfl, rfl⟩
  · rw [hresult, map_eq_error, logSetup_eq_fault_iff, hlevel]

section Numeric

/-- A file with a number for the level. -/
theorem ofFile_numeric : ofFile .document ⟨"c.yaml", some "log_level: 10\n"⟩ =
    .ok { standard with logLevel := .int 10 } := by
  have hts : Document.Token.ofText? (Document.unifyLines "log_level: 10\n".toList) =
      some [.blockMappingStart, .key, .scalar "log_level" true, .value, .scalar "10" true, .blockEnd] := by
    decide +kernel
  have hname : Document.Form.typeOf "log_level" = "str" := by decide +kernel
  have htype : Document.Form.typeOf "10" = "int" := by decide +kernel
  exact ofFile_of_entry hts hname (by rw [htype]; rfl)

/-- A program that has loaded settings before, beside a file with a number for the level. -/
def besideNumeric : Program where
  workspace := ⟨⟨[("c.yaml", "log_level: 10\n")]⟩, "config.yaml"⟩
  store := ⟨some standard, true⟩

theorem pointed_besideNumeric {a : Arguments} (h : a.value? "config" = some "c.yaml") :
    (besideNumeric.pointed a).store.cached = none ∧
      (besideNumeric.pointed a).workspace.file = ⟨"c.yaml", some "log_level: 10\n"⟩ := by
  have hnormal : Folder.normal "c.yaml" = "c.yaml" := by decide +kernel
  have hpointed : besideNumeric.pointed a =
      { besideNumeric with workspace := ⟨besideNumeric.workspace.folder, "c.yaml"⟩, store := {} } := by
    simp only [pointed, h, hnormal]
  rw [hpointed]
  exact ⟨rfl, file_single hnormal _⟩

/-- With a level given, the number in the file is handed on, and nothing breaks off. -/
theorem start_takes_settings_given :
    let a : Arguments := ⟨[.value "config" "c.yaml", .value "log-level" "debug", .switch "no-header" true], []⟩
    (besideNumeric.pointed a).store.cached = none ∧ (besideNumeric.pointed a).workspace.file.HoldsEntries ∧
    (∃ s, (besideNumeric.start a).1.store.cached = some s ∧ s.logLevel = .int 10) ∧
    (besideNumeric.start a).1.showsHeader = false ∧
    (besideNumeric.start a).2 = .ok () ∧ (besideNumeric.start a).1.log = ⟨10, 1, false⟩ := by
  intro a
  obtain ⟨hfresh, hfile⟩ := pointed_besideNumeric (a := a) rfl
  have hread : ofFile .document (besideNumeric.pointed a).workspace.file =
      .ok { standard with logLevel := .int 10 } := by
    rw [hfile, ofFile_numeric]
  have hentries := exists_ofFile_iff.mp ⟨_, hread⟩
  obtain ⟨⟨s, hcached, hvalue⟩, hheader, hok, -, -⟩ := start_takes_settings besideNumeric a hfresh hentries
  have hlevel : s.logLevel = .int 10 := (hvalue .logLevel).1.trans (value_of_ofFile hread .logLevel).symm
  have hshown : heldIn .document (besideNumeric.pointed a).workspace.file .showHeader = .bool true :=
    (value_of_ofFile hread .showHeader).symm
  have hdebug : Log.levelOf? "debug" = some 10 := by decide +kernel
  have hname : levelName (a.value? "log-level") (heldIn .document (besideNumeric.pointed a).workspace.file .logLevel)
      = .ok "debug" := levelName_of_ne (by decide) _
  refine ⟨hfresh, hentries, ⟨s, hcached, hlevel⟩, ?_, hok _ _ hname hdebug⟩
  rw [hheader, hshown]
  rfl

/-- With no level given, the number breaks the program off, without a message about it. -/
theorem numeric_level_breaks_off :
    let a : Arguments := ⟨[.value "config" "c.yaml"], ["p", "EQS_a"]⟩
    (besideNumeric.pointed a).workspace.file = ⟨"c.yaml", some "log_level: 10\n"⟩ ∧
    (besideNumeric.start a).2 = .error (.fault .noSuchPart) ∧
    (besideNumeric.start a).1.store.cached = some { standard with logLevel := .int 10 } := by
  intro a
  obtain ⟨hfresh, hfile⟩ := pointed_besideNumeric (a := a) rfl
  have hread : ofFile .document (besideNumeric.pointed a).workspace.file =
      .ok { standard with logLevel := .int 10 } := by
    rw [hfile, ofFile_numeric]
  obtain ⟨hcached, -, hresult, -⟩ := start_of_ofFile hfresh hread
  have hsetup : logSetup (a.value? "log-level") { standard with logLevel := .int 10 } =
      .error (.fault .noSuchPart) := by rfl
  exact ⟨hfile, by rw [hresult, hsetup]; rfl, hcached⟩

end Numeric

end Command.Program

end RecordFilter
