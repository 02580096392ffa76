import Mathlib
import RecordFilter.Page.Report
import RecordFilter.Proofs.Fallible
import RecordFilter.Proofs.Query.Path
import RecordFilter.Proofs.Value.Key

namespace RecordFilter

open Value (Findable Keyed lookup? equal_comm equal_trans)
open Fallible (bind_eq_ok map_eq_ok exists_mapM_iff getElem?_of_mapM forall₂_of_mapM)

namespace Display

variable {records : List Record} {r : Record} {keys columns : List Value} {c k : Value} {text : String}

section Gathering

/-- The keys of records as they come, record by record. -/
def keysOf (records : List Record) : List Value := records.flatMap fun r => r.map (·.1)

def addKey (columns : List Value) (k : Value) : List Value :=
  if columns.any (·.equal k) then columns else columns ++ [k]

theorem columns_eq (records : List Record) : Display.columns records = (keysOf records).foldl addKey [] := by
  have hrecord : ∀ columns (r : Record), addKeys columns r = (r.map (·.1)).foldl addKey columns := by
    intro columns r
    rw [List.foldl_map]
    rfl
  rw [keysOf, List.foldl_flatMap, Display.columns]
  congr 1
  funext columns r
  exact hrecord columns r

theorem mem_keysOf_iff : k ∈ keysOf records ↔ ∃ r ∈ records, ∃ e ∈ r, e.1 = k := by
  simp [keysOf]

theorem addKey_cases (columns : List Value) (k : Value) :
    (∃ c ∈ columns, c.equal k = true) ∧ addKey columns k = columns ∨
      (∀ c ∈ columns, c.equal k = false) ∧ addKey columns k = columns ++ [k] := by
  rw [addKey]
  cases hany : columns.any (·.equal k) with
  | true => exact .inl ⟨List.any_eq_true.mp hany, rfl⟩
  | false => exact .inr ⟨by simpa using List.any_eq_false.mp hany, rfl⟩

/-- Columns against the keys that they come from: one for each key and the keys equal to it, spelled as the first of
these and in the order of the first ones. -/
structure Gathered (keys columns : List Value) : Prop where
  apart : columns.Pairwise fun c d => c.equal d = false
  mem_iff : ∀ k, (∃ c ∈ columns, c.equal k = true) ↔ ∃ j ∈ keys, j.equal k = true
  first : ∀ c ∈ columns, keys.find? (·.equal c) = some c
  ordered : columns.Pairwise fun c d => keys.findIdx (·.equal c) < keys.findIdx (·.equal d)

theorem Gathered.mem_keys (h : Gathered keys columns) (hc : c ∈ columns) : c ∈ keys :=
  List.mem_of_find?_eq_some (h.first c hc)

theorem Gathered.findIdx_lt (h : Gathered keys columns) (hc : c ∈ columns) :
    keys.findIdx (·.equal c) < keys.length := by
  rw [List.findIdx_lt_length, ← List.find?_isSome, h.first c hc]
  rfl

/-- What is behind the first key that is equal to a column does not matter to it. -/
theorem Gathered.findIdx_concat (h : Gathered keys columns) (hc : c ∈ columns) :
    (keys ++ [k]).findIdx (·.equal c) = keys.findIdx (·.equal c) := by
  rw [List.findIdx_append, if_pos (h.findIdx_lt hc)]

theorem Gathered.first_concat (h : Gathered keys columns) (hc : c ∈ columns) :
    (keys ++ [k]).find? (·.equal c) = some c := by
  rw [List.find?_append, h.first c hc]
  rfl

theorem Gathered.ordered_concat (h : Gathered keys columns) :
    columns.Pairwise fun c d => (keys ++ [k]).findIdx (·.equal c) < (keys ++ [k]).findIdx (·.equal d) := by
  refine List.Pairwise.imp_of_mem ?_ h.ordered
  intro c d hc hd hlt
  rwa [h.findIdx_concat hc, h.findIdx_concat hd]

theorem gathered_addKey (h : Gathered keys columns) (hkeys : ∀ j ∈ keys, Findable j) (hk : Findable k) :
    Gathered (keys ++ [k]) (addKey columns k) := by
  rcases addKey_cases columns k with ⟨hseen, heq⟩ | ⟨hnew, heq⟩
  · obtain ⟨c, hc, hck⟩ := hseen
    rw [heq]
    refine ⟨h.apart, fun x => ?_, fun c => h.first_concat, h.ordered_concat⟩
    rw [h.mem_iff x]
    constructor
    · intro hh
      obtain ⟨j, hj, hjx⟩ := hh
      exact ⟨j, by simp [hj], hjx⟩
    · intro hh
      obtain ⟨j, hj, hjx⟩ := hh
      rcases List.mem_append.mp hj with hj | hj
      · exact ⟨j, hj, hjx⟩
      · obtain rfl := List.mem_singleton.mp hj
        exact ⟨c, h.mem_keys hc, equal_trans (hkeys c (h.mem_keys hc)).isKey hk.isKey hck hjx⟩
  · -- A key equal to the new one would have a column by now, so the new one is the first of its kind.
    have hfresh : ∀ j ∈ keys, j.equal k = false := by
      intro j hj
      rw [Bool.eq_false_iff]
      intro hjk
      obtain ⟨c, hc, hck⟩ := (h.mem_iff k).mpr ⟨j, hj, hjk⟩
      rw [hnew c hc] at hck
      cases hck
    have hplace : (keys ++ [k]).findIdx (·.equal k) = keys.length := by
      rw [List.findIdx_append, List.findIdx_eq_length_of_false hfresh]
      simp [hk.equal_self]
    rw [heq]
    refine ⟨?_, fun x => ?_, fun c hc => ?_, ?_⟩
    · exact List.pairwise_append.mpr ⟨h.apart, List.pairwise_singleton _ _, by simpa using hnew⟩
    · simp only [List.mem_append, List.mem_singleton, or_and_right, exists_or, exists_eq_left, h.mem_iff x]
    · rcases List.mem_append.mp hc with hc | hc
      · exact h.first_concat hc
      · obtain rfl := List.mem_singleton.mp hc
        have hnone : keys.find? (·.equal c) = none := List.find?_eq_none.mpr (by simpa using hfresh)
        rw [List.find?_append, hnone]
        simp [hk.equal_self]
    · refine List.pairwise_append.mpr ⟨h.ordered_concat, List.pairwise_singleton _ _, fun c hc d hd => ?_⟩
      obtain rfl := List.mem_singleton.mp hd
      rw [hplace, h.findIdx_concat hc]
      exact h.findIdx_lt hc

theorem gathered_foldl (h : ∀ j ∈ keys, Findable j) : Gathered keys (keys.foldl addKey []) := by
  induction keys using List.reverseRecOn with
  | nil => exact ⟨.nil, by simp, by simp, .nil⟩
  | append_singleton keys k ih =>
    have hkeys : ∀ j ∈ keys, Findable j := fun j hj => h j (by simp [hj])
    rw [List.foldl_append]
    exact gathered_addKey (ih hkeys) hkeys (h k (by simp))

theorem findable_of_mem_keysOf (h : ∀ r ∈ records, Keyed r) : ∀ k ∈ keysOf records, Findable k := by
  intro k hk
  obtain ⟨r, hr, e, he, rfl⟩ := mem_keysOf_iff.mp hk
  exact (h r hr).findable e he

theorem gathered_columns (h : ∀ r ∈ records, Keyed r) : Gathered (keysOf records) (Display.columns records) := by
  rw [columns_eq]
  exact gathered_foldl (findable_of_mem_keysOf h)

theorem foldl_addKey_of_seen (h : ∀ k ∈ keys, ∃ c ∈ columns, c.equal k = true) :
    keys.foldl addKey columns = columns := by
  induction keys with
  | nil => rfl
  | cons k keys ih =>
    obtain ⟨⟨c, hc, hck⟩, hrest⟩ := List.forall_mem_cons.mp h
    rcases addKey_cases columns k with ⟨-, heq⟩ | ⟨hnew, -⟩
    · rw [List.foldl_cons, heq]
      exact ih hrest
    · rw [hnew c hc] at hck
      cases hck

/-- Records with no key of their own add no column. -/
theorem columns_append (h : ∀ r ∈ records, Keyed r) {more : List Record}
    (hmore : ∀ k ∈ keysOf more, ∃ j ∈ keysOf records, j.equal k = true) :
    Display.columns (records ++ more) = Display.columns records := by
  have hkeys : keysOf (records ++ more) = keysOf records ++ keysOf more := List.flatMap_append
  rw [columns_eq, hkeys, List.foldl_append, ← columns_eq]
  exact foldl_addKey_of_seen fun k hk => ((gathered_columns h).mem_iff k).mpr (hmore k hk)

end Gathering

section Cells

/-- The text of a record under a key: that of its value there, and none where it has no such key. -/
structure CellOf (r : Record) (key : Value) (text : String) : Prop where
  shown : ∀ e ∈ r, e.1.equal key = true → cellText e.2 = .ok text
  empty : (∀ e ∈ r, e.1.equal key = false) → text = ""

theorem entry_or_absent (r : Record) (key : Value) :
    (∃ e ∈ r, e.1.equal key = true) ∨ ∀ e ∈ r, e.1.equal key = false := by
  cases hany : r.any (·.1.equal key) with
  | true => exact .inl (List.any_eq_true.mp hany)
  | false => exact .inr (by simpa using List.any_eq_false.mp hany)

theorem cellOf_of_cellText (h : Keyed r) (hc : c.isKey = true)
    (htext : cellText ((lookup? c r).getD .null) = .ok text) : CellOf r c text := by
  constructor
  · intro e he hequal
    rwa [h.lookup?_eq_some he hc hequal] at htext
  · intro habsent
    rw [Value.lookup?_eq_none habsent, Option.getD_none, cellText] at htext
    exact (Except.ok.inj htext).symm

/-- A record has a row when each of its values has a text, for each stands in a column. -/
theorem exists_row_iff (h : Keyed r) (hcolumns : ∀ c ∈ columns, c.isKey = true)
    (hall : ∀ e ∈ r, ∃ c ∈ columns, c.equal e.1 = true) :
    (∃ cells, row columns r = .ok cells) ↔ ∀ e ∈ r, ∃ text, cellText e.2 = .ok text := by
  rw [row, exists_mapM_iff]
  constructor
  · intro hrow e he
    obtain ⟨c, hc, hce⟩ := hall e he
    have hequal : e.1.equal c = true := equal_comm (hcolumns c hc) (h.findable e he).isKey ▸ hce
    obtain ⟨text, htext⟩ := hrow c hc
    exact ⟨text, (cellOf_of_cellText h (hcolumns c hc) htext).shown e he hequal⟩
  · intro htexts c hc
    rcases entry_or_absent r c with ⟨e, he, hequal⟩ | habsent
    · rw [h.lookup?_eq_some he (hcolumns c hc) hequal]
      exact htexts e he
    · rw [Value.lookup?_eq_none habsent]
      exact ⟨"", rfl⟩

end Cells

end Display

namespace Page

open Display (keysOf Gathered CellOf gathered_columns findable_of_mem_keysOf)

variable {records : List Record} {headers : List Value} {rows : List (List String)} {wraps : Bool} {t : Table}

theorem recordsTable_eq_ok_iff :
    recordsTable wraps records = .ok t ↔
      ∃ rows, records.mapM (Display.row (Display.columns records)) = .ok rows ∧
        t = ⟨none, .simple, columnsOf (Display.columns records) rows wraps⟩ := by
  rw [recordsTable, bind_eq_ok]
  constructor
  · intro h
    obtain ⟨rows, hrows, h⟩ := h
    exact ⟨rows, hrows, (Except.ok.inj h).symm⟩
  · intro h
    obtain ⟨rows, hrows, rfl⟩ := h
    exact ⟨rows, hrows, rfl⟩

theorem map_header_columnsOf : (columnsOf headers rows wraps).map (·.header) = headers := by
  rw [columnsOf, List.map_map]
  exact List.zipIdx_map_fst 0 headers

theorem mem_columnsOf_iff {column : Column} :
    column ∈ columnsOf headers rows wraps ↔
      ∃ key, ∃ i : Nat, headers[i]? = some key ∧ column = ⟨key, rows.map fun r => (r[i]?).getD "", wraps⟩ := by
  rw [columnsOf, List.mem_map]
  constructor
  · intro h
    obtain ⟨⟨key, i⟩, hmem, rfl⟩ := h
    exact ⟨key, i, List.mem_zipIdx_iff_getElem?.mp hmem, rfl⟩
  · intro h
    obtain ⟨key, i, hkey, rfl⟩ := h
    exact ⟨(key, i), List.mem_zipIdx_iff_getElem?.mpr hkey, rfl⟩

theorem isKey_of_mem_columns (h : ∀ r ∈ records, Keyed r) : ∀ c ∈ Display.columns records, c.isKey = true :=
  fun c hc => (findable_of_mem_keysOf h c ((gathered_columns h).mem_keys hc)).isKey

/-- A table of records is there when each value in them has a text. -/
theorem exists_recordsTable_iff (h : ∀ r ∈ records, Keyed r) :
    (∃ t, recordsTable wraps records = .ok t) ↔
      ∀ r ∈ records, ∀ e ∈ r, ∃ text, Display.cellText e.2 = .ok text := by
  have hrows : (∃ t, recordsTable wraps records = .ok t) ↔
      ∃ rows, records.mapM (Display.row (Display.columns records)) = .ok rows := by
    simp only [recordsTable_eq_ok_iff]
    constructor
    · intro hh
      obtain ⟨t, rows, hrows, -⟩ := hh
      exact ⟨rows, hrows⟩
    · intro hh
      obtain ⟨rows, hrows⟩ := hh
      exact ⟨_, rows, hrows, rfl⟩
  rw [hrows, exists_mapM_iff]
  refine forall₂_congr fun r hr => Display.exists_row_iff (h r hr) (isKey_of_mem_columns h) fun e he => ?_
  have hkey : e.1 ∈ keysOf records := Display.mem_keysOf_iff.mpr ⟨r, hr, e, he, rfl⟩
  exact ((gathered_columns h).mem_iff e.1).mpr ⟨e.1, hkey, ((h r hr).findable e he).equal_self⟩

theorem cells_of_recordsTable (h : ∀ r ∈ records, Keyed r) (ht : recordsTable wraps records = .ok t)
    {column : Column} (hcolumn : column ∈ t.columns) :
    List.Forall₂ (fun r text => CellOf r column.header text) records column.cells := by
  obtain ⟨rows, hrows, rfl⟩ := recordsTable_eq_ok_iff.mp ht
  obtain ⟨key, i, hkey, rfl⟩ := mem_columnsOf_iff.mp hcolumn
  have hrow := (List.forall₂_and_left _ _).mpr ⟨h, forall₂_of_mapM hrows⟩
  rw [List.forall₂_map_right_iff]
  refine hrow.imp fun r cells hr => ?_
  obtain ⟨text, htext, hcell⟩ := getElem?_of_mapM hr.2 hkey
  rw [htext, Option.getD_some]
  exact Display.cellOf_of_cellText hr.1 (isKey_of_mem_columns h key (List.mem_of_getElem? hkey)) hcell

theorem recordsPage_eq_bind (isHeaded : Bool) (entries : List Entry) (total : Nat) (h : records ≠ []) :
    ∃ topic, recordsPage isHeaded wraps entries records total =
      (if entries.isEmpty then pure [] else tableLines (entriesTable entries)) >>= fun filters =>
        recordsTable wraps records >>= fun t =>
          (tableLines t).map fun shown => heading isHeaded topic ++ filters ++ shown := by
  have hsome : records.isEmpty = false := by simpa using h
  refine ⟨"filter (" ++ toString records.length ++ " of " ++ toString total ++ " records)", ?_⟩
  rw [recordsPage, hsome]
  cases entries.isEmpty <;> rfl

/-- A page on records ends in their table. -/
theorem exists_recordsTable_of_recordsPage {isHeaded : Bool} {entries : List Entry} {total : Nat} {lines : Lines}
    (h : recordsPage isHeaded wraps entries records total = .ok lines) (hne : records ≠ []) :
    ∃ t shown, recordsTable wraps records = .ok t ∧ tableLines t = .ok shown ∧ shown <:+ lines := by
  obtain ⟨topic, heq⟩ := recordsPage_eq_bind isHeaded entries total hne
  obtain ⟨filters, -, h⟩ := bind_eq_ok.mp (heq ▸ h)
  obtain ⟨t, ht, h⟩ := bind_eq_ok.mp h
  obtain ⟨shown, hshown, rfl⟩ := map_eq_ok.mp h
  exact ⟨t, shown, ht, hshown, List.suffix_append _ _⟩

/-- The columns of records are their keys, each once and in the order in which they came first, and records without
a key of their own add none. The table of records is there when each of their values has a text. Under each column
it has one cell for each record: the text of the value that the record holds there, and nothing where it has no such
key. A page on records ends in this table. -/
theorem table_loses_nothing (records : List Record) (h : ∀ r ∈ records, Keyed r) :
    Gathered (keysOf records) (Display.columns records) ∧
    (∀ more, (∀ k ∈ keysOf more, ∃ j ∈ keysOf records, j.equal k = true) →
      Display.columns (records ++ more) = Display.columns records) ∧
    ∀ wraps,
      ((∃ t, recordsTable wraps records = .ok t) ↔
        ∀ r ∈ records, ∀ e ∈ r, ∃ text, Display.cellText e.2 = .ok text) ∧
      (∀ t, recordsTable wraps records = .ok t →
        t.columns.map (·.header) = Display.columns records ∧
        ∀ column ∈ t.columns, List.Forall₂ (fun r text => CellOf r column.header text) records column.cells) ∧
      ∀ isHeaded entries total lines, recordsPage isHeaded wraps entries records total = .ok lines → records ≠ [] →
        ∃ t shown, recordsTable wraps records = .ok t ∧ tableLines t = .ok shown ∧ shown <:+ lines := by
  refine ⟨gathered_columns h, fun more => Display.columns_append h, fun wraps => ?_⟩
  refine ⟨exists_recordsTable_iff h, fun t ht => ⟨?_, fun column => cells_of_recordsTable h ht⟩,
    fun isHeaded entries total lines => exists_recordsTable_of_recordsPage⟩
  obtain ⟨rows, -, rfl⟩ := recordsTable_eq_ok_iff.mp ht
  exact map_header_columnsOf

/-- Two records with a key in common, spelled in two ways, and a third one with no key of its own. -/
theorem table_loses_nothing_overlapping :
    let first : Record := [(.text "name", .text "vincent"), (.int 1, .bool true)]
    let second : Record := [(.bool true, .null), (.text "tags", .list [.text "a", .bool false])]
    let records := [first, second]
    let third : Record := [(.text "tags", .null), (.bool true, .int 7)]
    let headers : List Value := [.text "name", .int 1, .text "tags"]
    (∀ r ∈ records, Keyed r) ∧ Display.columns (records ++ [third]) = headers ∧
    ∃ t, recordsTable true records = .ok t ∧ t.columns.map (·.header) = headers ∧
      ∀ column ∈ t.columns, column.header = .text "tags" → column.cells = ["", "a, false"] := by
  intro first second records third headers
  have hfirst : first = Document.mappingOf
      [(.text "name", .text "vincent"), (.int 1, .null), (.bool true, .bool true)] := by
    simp [first, Document.mappingOf, Document.addEntry, Value.assign, Value.equal, Value.equalLeaf, Value.number?,
      Value.moment?]
  have hsecond : second = Document.mappingOf second := by
    simp [second, Document.mappingOf, Document.addEntry, Value.assign, Value.equal, Value.equalLeaf, Value.number?,
      Value.moment?]
  have htext : ∀ s, Findable (.text s) := fun s => ⟨rfl, rfl⟩
  have hone : Findable (.int 1) := ⟨rfl, rfl⟩
  have htrue : Findable (.bool true) := ⟨rfl, rfl⟩
  have hkeyed : ∀ r ∈ records, Keyed r := by
    refine List.forall_mem_cons.mpr ⟨hfirst ▸ Value.keyed_mappingOf ?_, List.forall_mem_singleton.mpr ?_⟩
    · simp only [List.forall_mem_cons]
      exact ⟨htext "name", hone, htrue, by simp⟩
    · refine hsecond ▸ Value.keyed_mappingOf ?_
      simp only [second, List.forall_mem_cons]
      exact ⟨htrue, htext "tags", by simp⟩
  obtain ⟨-, happend, htable⟩ := table_loses_nothing records hkeyed
  obtain ⟨hexists, hshown, -⟩ := htable true
  have hcolumns : Display.columns records = headers := by
    simp [records, first, second, headers, Display.columns, Display.addKeys, Value.equal, Value.equalLeaf,
      Value.number?, Value.moment?]
  have hthird : ∀ k ∈ keysOf [third], ∃ j ∈ keysOf records, j.equal k = true := by
    have hkeys : keysOf [third] ⊆ keysOf records := by
      simp [keysOf, third, records, first, second]
    exact fun k hk => ⟨k, hkeys hk, (findable_of_mem_keysOf hkeyed k (hkeys hk)).equal_self⟩
  have hlist : Display.cellText (.list [.text "a", .bool false]) = .ok "a, false" := by cbv
  have htexts : ∀ r ∈ records, ∀ e ∈ r, ∃ text, Display.cellText e.2 = .ok text := by
    simp only [records, first, second, List.mem_cons, List.not_mem_nil, or_false, forall_eq_or_imp, forall_eq]
    exact ⟨⟨⟨"vincent", by cbv⟩, ⟨"true", by cbv⟩⟩, ⟨"", by cbv⟩, ⟨"a, false", hlist⟩⟩
  obtain ⟨t, ht⟩ := hexists.mpr htexts
  obtain ⟨hheaders, hcells⟩ := hshown t ht
  refine ⟨hkeyed, (happend [third] hthird).trans hcolumns, t, ht, hheaders.trans hcolumns, ?_⟩
  intro column hmem hheader
  have hboth := hcells column hmem
  rw [hheader] at hboth
  obtain ⟨text, rest, hnone, hrest, hcons⟩ := List.forall₂_cons_left_iff.mp hboth
  obtain ⟨text', rest', hsome, hnil, hcons'⟩ := List.forall₂_cons_left_iff.mp hrest
  have hempty : text = "" := hnone.empty (by
    simp [first, Value.equal, Value.equalLeaf, Value.number?, Value.moment?])
  have hitems := hsome.shown (.text "tags", .list [.text "a", .bool false]) (by simp [second])
    ((Value.equal_text_iff _ _).mpr rfl)
  rw [hlist] at hitems
  rw [hcons, hcons', List.forall₂_nil_left_iff.mp hnil, hempty, ← Except.ok.inj hitems]

end Page

end RecordFilter
