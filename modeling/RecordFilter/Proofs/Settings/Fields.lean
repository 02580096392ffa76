import Mathlib
import RecordFilter.Settings.Store

namespace RecordFilter

namespace Folder

theorem lookup_put (files : List (String × String)) (path text : String) :
    (put files path text).lookup path = some text := by
  rw [put]
  split_ifs with h
  · induction files with
    | nil => simp at h
    | cons f files ih =>
      obtain ⟨name, old⟩ := f
      by_cases hname : path = name
      · simp [hname]
      · have hrest : files.any (·.1 == path) = true := by simpa [Ne.symm hname] using h
        have hlater := ih hrest
        simpa [List.lookup_cons, Ne.symm hname, beq_false_of_ne hname] using hlater
  · have hnone : files.lookup path = none := by
      rw [List.lookup_eq_none_iff]
      intro f hf
      have hne : f.1 ≠ path := fun heq => h (List.any_eq_true.mpr ⟨f, hf, beq_iff_eq.mpr heq⟩)
      exact bne_iff_ne.mpr (Ne.symm hne)
    simp [List.lookup_append, hnone]

theorem text?_of_write {folder folder' : Folder} {path text : String}
    (h : folder.write path text = .ok folder') :
    folder'.text? path = some text := by
  rw [write] at h
  split at h
  · cases h
  · split_ifs at h
    obtain rfl := Except.ok.inj h
    exact lookup_put folder.files (normal path) text

end Folder

namespace Settings

inductive Field
  | filterPrefix
  | ignoreEmpty
  | showHeader
  | logLevel
  deriving DecidableEq

def Field.name : Field → String
  | .filterPrefix => "filter_prefix"
  | .ignoreEmpty => "ignore_empty_value"
  | .showHeader => "show_header"
  | .logLevel => "log_level"

def value (s : Settings) : Field → Value
  | .filterPrefix => s.filterPrefix
  | .ignoreEmpty => s.ignoreEmpty
  | .showHeader => s.showHeader
  | .logLevel => s.logLevel

/-- What a change gives for a field, a level in capitals. -/
def Change.value? (change : Change) : Field → Option Value
  | .filterPrefix => change.filterPrefix
  | .ignoreEmpty => change.ignoreEmpty
  | .showHeader => change.showHeader
  | .logLevel => change.logLevel.map fun level => .text (Text.capitalize level)

/-- The value of an entry that has the name of the field. -/
def Field.valueIn? (field : Field) : Value × Value → Option Value
  | (.text name, v) => if name = field.name then some v else none
  | _ => none

variable {s t : Settings} {change : Change} {es : List (Value × Value)} {form : Form} {file : File}

theorem eq_of_value (h : ∀ field, s.value field = t.value field) : s = t := by
  cases s
  cases t
  rw [mk.injEq]
  exact ⟨h .filterPrefix, h .ignoreEmpty, h .showHeader, h .logLevel⟩

theorem Field.valueIn?_self (field : Field) (v : Value) : field.valueIn? (.text field.name, v) = some v :=
  if_pos rfl

theorem Field.valueIn?_of_ne {field : Field} {name : Value} (h : name ≠ .text field.name) (v : Value) :
    field.valueIn? (name, v) = none := by
  cases name with
  | text name => exact if_neg fun heq => h (congrArg Value.text heq)
  | _ => rfl

theorem value_set_of_ne {field : Field} {name : Value} (h : name ≠ .text field.name) (s : Settings)
    (v : Value) :
    (s.set name v).value field = s.value field := by
  unfold set
  split <;> cases field <;> simp_all [value, Field.name]

theorem value_set (s : Settings) (e : Value × Value) (field : Field) :
    (s.set e.1 e.2).value field = (field.valueIn? e).getD (s.value field) := by
  obtain ⟨name, v⟩ := e
  by_cases h : name = .text field.name
  · subst h
    rw [Field.valueIn?_self]
    cases field <;> rfl
  · rw [Field.valueIn?_of_ne h]
    exact value_set_of_ne h s v

theorem value_apply (s : Settings) (change : Change) (field : Field) :
    (s.apply change).value field = (change.value? field).getD (s.value field) := by
  cases field <;> rfl

theorem isNone_iff : change.isNone = true ↔ ∀ field, change.value? field = none := by
  simp only [Change.isNone, Bool.and_eq_true, Option.isNone_iff_eq_none]
  constructor
  · intro hh field
    obtain ⟨⟨⟨hlead, hempty⟩, hheader⟩, hlevel⟩ := hh
    cases field with
    | filterPrefix => exact hlead
    | ignoreEmpty => exact hempty
    | showHeader => exact hheader
    | logLevel => rw [Change.value?, hlevel, Option.map_none]
  · intro h
    exact ⟨⟨⟨h .filterPrefix, h .ignoreEmpty⟩, h .showHeader⟩, Option.map_eq_none_iff.mp (h .logLevel)⟩

/-- The last value that changes give for a field. -/
def lastGiven? (field : Field) (changes : List Change) : Option Value :=
  (changes.filterMap (·.value? field)).getLast?

theorem lastGiven?_append (field : Field) (changes more : List Change) :
    lastGiven? field (changes ++ more) = (lastGiven? field more).or (lastGiven? field changes) := by
  rw [lastGiven?, List.filterMap_append, List.getLast?_append]
  rfl

theorem lastGiven?_of_isNone {changes : List Change} (h : ∀ change ∈ changes, change.isNone = true)
    (field : Field) :
    lastGiven? field changes = none := by
  rw [lastGiven?, List.getLast?_eq_none_iff, List.filterMap_eq_nil_iff]
  exact fun change hc => isNone_iff.mp (h change hc) field

section Files

/-- The entries in the file of settings. Without a file, or in an empty one, there are none. -/
def entriesIn (form : Form) (file : File) : List (Value × Value) :=
  match file.text.map form.read with
  | some (.ok (.map es)) => es
  | _ => []

/-- The value that a file holds for a field, or else the standard one. -/
def heldIn (form : Form) (file : File) (field : Field) : Value :=
  ((entriesIn form file).filterMap field.valueIn?).getLast?.getD (standard.value field)

theorem value_foldl_set (es : List (Value × Value)) (s : Settings) (field : Field) :
    (es.foldl (fun s e => s.set e.1 e.2) s).value field =
      (es.filterMap field.valueIn?).getLast?.getD (s.value field) := by
  induction es generalizing s with
  | nil => rfl
  | cons e es ih =>
    rw [List.foldl_cons, ih, value_set]
    cases he : field.valueIn? e with
    | none => rw [List.filterMap_cons_none he, Option.getD_none]
    | some v => rw [List.filterMap_cons_some he, List.getLast?_cons, Option.getD_some, Option.getD_some]

theorem value_ofEntries (es : List (Value × Value)) (field : Field) :
    (ofEntries es).value field = (es.filterMap field.valueIn?).getLast?.getD (standard.value field) :=
  value_foldl_set es standard field

theorem eq_ofEntries_of_ofFile (h : ofFile form file = .ok s) : s = ofEntries (entriesIn form file) := by
  obtain ⟨path, text⟩ := file
  cases text with
  | none => exact (Except.ok.inj h).symm
  | some text =>
    simp only [ofFile] at h
    simp only [entriesIn, Option.map_some]
    split at h
    · cases h
    · next hread =>
      rw [hread]
      exact (Except.ok.inj h).symm
    · next hread =>
      rw [hread]
      exact (Except.ok.inj h).symm
    · cases h

theorem value_of_ofFile (h : ofFile form file = .ok s) (field : Field) :
    s.value field = heldIn form file field := by
  rw [eq_ofEntries_of_ofFile h, value_ofEntries, heldIn]

/-- Reading undoes writing, for these settings: what was written holds their four entries, in any order. -/
def Form.Restores (form : Form) (s : Settings) : Prop :=
  ∃ es, form.read (form.write s) = .ok (.map es) ∧ es.Perm s.entries

theorem ofEntries_of_perm (h : es.Perm s.entries) : ofEntries es = s := by
  refine eq_of_value fun field => ?_
  have hone : s.entries.filterMap field.valueIn? = [s.value field] := by
    cases field <;> rfl
  have hvalues : es.filterMap field.valueIn? = [s.value field] :=
    List.perm_singleton.mp (hone ▸ h.filterMap field.valueIn?)
  rw [value_ofEntries, hvalues]
  rfl

theorem ofFile_of_restores (h : form.Restores s) (htext : file.text = some (form.write s)) :
    ofFile form file = .ok s := by
  obtain ⟨es, hread, hes⟩ := h
  rw [ofFile]
  simp only [htext, hread, ofEntries_of_perm hes]

end Files

end Settings

end RecordFilter
