import Mathlib
import RecordFilter.Proofs.Settings.Fields

namespace RecordFilter.Settings

open Document (valueOf)

variable {s : Settings}

section Writing

open Document.Written

/-- The names of the fields in order, whatever the texts of their entries. -/
theorem sorted_entries (a b c d : List Char) :
    sorted [(.text "filter_prefix", a), (.text "ignore_empty_value", b), (.text "show_header", c),
        (.text "log_level", d)] =
      [(.text "filter_prefix", a), (.text "ignore_empty_value", b), (.text "log_level", d),
        (.text "show_header", c)] := by
  have h₁ : Value.order? .less (.text "ignore_empty_value") (.text "filter_prefix") = some false := by rfl
  have h₂ : Value.order? .less (.text "log_level") (.text "show_header") = some true := by rfl
  have h₃ : Value.order? .less (.text "log_level") (.text "filter_prefix") = some false := by rfl
  have h₄ : Value.order? .less (.text "log_level") (.text "ignore_empty_value") = some false := by rfl
  rw [sorted, if_pos (by rfl)]
  simp [List.mergeSort, List.MergeSort.Internal.splitInTwo, h₁, h₂, h₃, h₄]

/-- The lines of an entry. -/
def entryText (name : String) (v : Value) : List Char :=
  name.toList ++ ':' :: behind .entry 0 (name.length + 1) v

theorem write_document (s : Settings) :
    Form.document.write s = String.ofList (entryText "filter_prefix" s.filterPrefix ++
      entryText "ignore_empty_value" s.ignoreEmpty ++ entryText "log_level" s.logLevel ++
        entryText "show_header" s.showHeader) := by
  have htexts : entryTexts 0 s.entries = [(.text "filter_prefix", entryText "filter_prefix" s.filterPrefix),
      (.text "ignore_empty_value", entryText "ignore_empty_value" s.ignoreEmpty),
      (.text "show_header", entryText "show_header" s.showHeader),
      (.text "log_level", entryText "log_level" s.logLevel)] := by
    rfl
  change String.ofList (lines 0 true (entryTexts 0 s.entries)) = _
  rw [htexts, lines, sorted_entries]
  simp [blanks]

end Writing

section Reading

/-- The tree of a document with an entry for each field, in the order of their names. -/
def treeOf (tree : Value → Document.Node) (s : Settings) : Document.Node :=
  .mapping .quoted [(.scalar .plain "filter_prefix", tree s.filterPrefix),
    (.scalar .plain "ignore_empty_value", tree s.ignoreEmpty),
    (.scalar .plain "log_level", tree s.logLevel), (.scalar .plain "show_header", tree s.showHeader)]

theorem mappingOf_fields (a b c d : Value) :
    Document.mappingOf [(.text "filter_prefix", a), (.text "ignore_empty_value", b), (.text "log_level", c),
        (.text "show_header", d)] =
      [(.text "filter_prefix", a), (.text "ignore_empty_value", b), (.text "log_level", c),
        (.text "show_header", d)] := by
  cbv

theorem valueOf_treeOf {tree : Value → Document.Node}
    (h : ∀ field, valueOf (tree (s.value field)) = .ok (s.value field)) :
    valueOf (treeOf tree s) = .ok (.map [(.text "filter_prefix", s.filterPrefix),
      (.text "ignore_empty_value", s.ignoreEmpty), (.text "log_level", s.logLevel),
      (.text "show_header", s.showHeader)]) := by
  have h₁ : Document.Form.typeOf "filter_prefix" = "str" := by decide +kernel
  have h₂ : Document.Form.typeOf "ignore_empty_value" = "str" := by decide +kernel
  have h₃ : Document.Form.typeOf "log_level" = "str" := by decide +kernel
  have h₄ : Document.Form.typeOf "show_header" = "str" := by decide +kernel
  have hlead : valueOf (tree s.filterPrefix) = .ok s.filterPrefix := h .filterPrefix
  have hempty : valueOf (tree s.ignoreEmpty) = .ok s.ignoreEmpty := h .ignoreEmpty
  have hheader : valueOf (tree s.showHeader) = .ok s.showHeader := h .showHeader
  have hlevel : valueOf (tree s.logLevel) = .ok s.logLevel := h .logLevel
  simp [treeOf, valueOf, Document.mergedOf, Document.entriesOf, Document.Node.type?, Document.scalarOf, h₁,
    h₂, h₃, h₄, hlead, hempty, hheader, hlevel, bind, Except.bind, pure, Except.pure, Value.isKey,
    mappingOf_fields]

theorem read_document (text : String) : Form.document.read text = Document.load text := rfl

theorem load_of_tokens {text : String} {ts : List Document.Token} {n : Document.Node}
    (hts : Document.Token.ofText? (Document.unifyLines text.toList) = some ts)
    (hn : Document.Node.ofTokens? ts = some (some n)) : Document.load text = valueOf n := by
  rw [Document.load, hts, Option.bind_some, hn]

/-- A document with one scalar in it. -/
theorem load_of_scalar {text word : String}
    (hts : Document.Token.ofText? (Document.unifyLines text.toList) = some [.scalar word true]) :
    Document.load text = Document.scalarOf (Document.Form.typeOf word) word := by
  rw [load_of_tokens hts (show _ = some (some (.scalar .plain word)) by rfl)]
  simp [valueOf, Document.Node.type?]

/-- A document with one entry, its name and its value being scalars. -/
theorem load_of_entry {text name word : String} {v : Value}
    (hts : Document.Token.ofText? (Document.unifyLines text.toList) =
      some [.blockMappingStart, .key, .scalar name true, .value, .scalar word true, .blockEnd])
    (hname : Document.Form.typeOf name = "str")
    (hword : Document.scalarOf (Document.Form.typeOf word) word = .ok v) :
    Document.load text = .ok (.map [(.text name, v)]) := by
  have htree : Document.Node.ofTokens? [.blockMappingStart, .key, .scalar name true, .value, .scalar word true,
      .blockEnd] = some (some (.mapping .quoted [(.scalar .plain name, .scalar .plain word)])) := by rfl
  have hkey : Document.scalarOf "str" name = .ok (.text name) := rfl
  rw [load_of_tokens hts htree]
  simp [valueOf, Document.Node.type?, hname, hkey, hword, Document.mergedOf, Document.entriesOf, bind, Except.bind,
    pure, Except.pure, Value.isKey, Document.mappingOf, Document.addEntry, Value.assign]

theorem ofFile_of_entry {path text name word : String} {v : Value}
    (hts : Document.Token.ofText? (Document.unifyLines text.toList) =
      some [.blockMappingStart, .key, .scalar name true, .value, .scalar word true, .blockEnd])
    (hname : Document.Form.typeOf name = "str")
    (hword : Document.scalarOf (Document.Form.typeOf word) word = .ok v) :
    ofFile .document ⟨path, some text⟩ = .ok (ofEntries [(.text name, v)]) := by
  simp only [ofFile, read_document, load_of_entry hts hname hword]

/-- A folder in which only the file of the settings is. -/
theorem file_single {path : String} (h : Folder.normal path = path) (text : String) :
    Workspace.file ⟨⟨[(path, text)]⟩, path⟩ = ⟨path, some text⟩ := by
  simp [Workspace.file, Folder.text?, h]

/-- Settings are read back when their document has the tree of its four entries. -/
theorem restores_of_tree (tree : Value → Document.Node) {ts : List Document.Token}
    (hts : Document.Token.ofText? (Document.unifyLines (Form.document.write s).toList) = some ts)
    (htree : Document.Node.ofTokens? ts = some (some (treeOf tree s)))
    (h : ∀ field, valueOf (tree (s.value field)) = .ok (s.value field)) : Form.document.Restores s := by
  have hread : Form.document.read (Form.document.write s) = valueOf (treeOf tree s) := by
    rw [read_document, load_of_tokens hts htree]
  rw [valueOf_treeOf h] at hread
  refine ⟨_, hread, ?_⟩
  exact ((List.Perm.swap _ _ _).cons _).cons _

/-- Texts and truth values as plain scalars. -/
def plainOf : Value → Document.Node
  | .text s => .scalar .plain s
  | .bool b => .scalar .plain (if b then "true" else "false")
  | _ => Document.Node.emptyScalar

/-- The standard settings at another level. -/
theorem restores_debug : Form.document.Restores { standard with logLevel := .text "DEBUG" } := by
  have htext : Form.document.write { standard with logLevel := .text "DEBUG" } =
      "filter_prefix: filter\nignore_empty_value: true\nlog_level: DEBUG\nshow_header: true\n" := by
    rw [write_document]
    decide +kernel
  have hts : Document.Token.ofText? (Document.unifyLines
      "filter_prefix: filter\nignore_empty_value: true\nlog_level: DEBUG\nshow_header: true\n".toList) =
      some [.blockMappingStart, .key, .scalar "filter_prefix" true, .value, .scalar "filter" true,
        .key, .scalar "ignore_empty_value" true, .value, .scalar "true" true,
        .key, .scalar "log_level" true, .value, .scalar "DEBUG" true,
        .key, .scalar "show_header" true, .value, .scalar "true" true, .blockEnd] := by
    decide +kernel
  rw [← htext] at hts
  refine restores_of_tree plainOf hts (by cbv) fun field => ?_
  cases field with
  | filterPrefix => rfl
  | ignoreEmpty => rfl
  | showHeader => rfl
  | logLevel => rfl

end Reading

end RecordFilter.Settings
