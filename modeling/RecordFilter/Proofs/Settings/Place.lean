import Mathlib
import RecordFilter.Proofs.Settings.Fields
import RecordFilter.Proofs.Text.Split

namespace RecordFilter.Folder

section Parts

variable {path part : String} {ps : List String}

/-- What stands between the marks of a path and counts. -/
def IsPart (part : String) : Prop := part ≠ "" ∧ part ≠ "." ∧ '/' ∉ part.toList

theorem parts_eq_filter (path : String) :
    parts path = (Text.pieces '/' path).filter fun p => p != "" && p != "." := rfl

theorem isPart_of_mem_parts (h : part ∈ parts path) : IsPart part := by
  rw [parts_eq_filter, List.mem_filter] at h
  obtain ⟨hpiece, hkept⟩ := h
  have hne : part ≠ "" ∧ part ≠ "." := by simpa using hkept
  exact ⟨hne.1, hne.2, Text.not_mem_of_mem_pieces hpiece⟩

theorem pieces_join_parts (h : ∀ part ∈ ps, IsPart part) (hps : ps ≠ []) :
    Text.pieces '/' (Text.join "/" ps) = ps := by
  have hpieces : ps.flatMap (Text.pieces '/') = ps.flatMap fun part => [part] :=
    List.flatMap_congr fun part hpart => Text.pieces_of_not_mem '/' part (h part hpart).2.2
  rw [Text.pieces_join_of_toList (by rfl) hps, hpieces, List.flatMap_singleton']

theorem parts_join (h : ∀ part ∈ ps, IsPart part) : parts (Text.join "/" ps) = ps := by
  by_cases hps : ps = []
  · subst hps
    rfl
  · rw [parts_eq_filter, pieces_join_parts h hps, List.filter_eq_self]
    intro part hpart
    obtain ⟨hempty, hdot, -⟩ := h part hpart
    simp [hempty, hdot]

theorem toList_join_ne_slash (h : ∀ part ∈ ps, IsPart part) (rest : List Char) :
    (Text.join "/" ps).toList ≠ '/' :: rest := by
  intro htext
  have hps : ps ≠ [] := by
    intro hnil
    simp [hnil, Text.join] at htext
  have hpieces := pieces_join_parts h hps
  rw [Text.pieces, htext, Text.splitAt, if_pos rfl, List.map_cons] at hpieces
  have hempty : "" ∈ ps := by
    rw [← hpieces]
    exact List.mem_cons_self
  exact (h "" hempty).1 rfl

theorem rootOf_cases (path : String) : rootOf path = "" ∨ rootOf path = "/" ∨ rootOf path = "//" := by
  unfold rootOf
  split <;> simp

theorem parts_slash (text : String) : parts ("/" ++ text) = parts text := by
  have hletters : ("/" ++ text).toList = '/' :: text.toList := by simp
  rw [parts, hletters, Text.splitAt, if_pos rfl]
  rfl

theorem parts_root (path text : String) : parts (rootOf path ++ text) = parts text := by
  have htwo : "//" ++ text = "/" ++ ("/" ++ text) := by
    rw [← String.append_assoc]
    rfl
  rcases rootOf_cases path with hroot | hroot | hroot <;> rw [hroot]
  · rw [String.empty_append]
  · exact parts_slash text
  · rw [htwo, parts_slash, parts_slash]

/-- What stands behind a root and starts with no mark leaves it the root. -/
theorem rootOf_root (path : String) {text : String} (h : ∀ rest, text.toList ≠ '/' :: rest) :
    rootOf (rootOf path ++ text) = rootOf path := by
  cases htext : text.toList with
  | nil => rcases rootOf_cases path with hroot | hroot | hroot <;> rw [hroot] <;> simp [rootOf, htext]
  | cons c rest =>
    have hc : c ≠ '/' := by
      intro hslash
      exact h rest (hslash ▸ htext)
    rcases rootOf_cases path with hroot | hroot | hroot <;> rw [hroot] <;> simp [rootOf, htext, hc]

section Normal

variable (h : ∀ part ∈ ps, IsPart part) (path : String)

include h

theorem parts_ofParts : parts (ofParts (rootOf path) ps) = ps := by
  have htext : parts (rootOf path ++ Text.join "/" ps) = ps := by
    rw [parts_root, parts_join h]
  rw [ofParts]
  split
  · next hempty =>
    rw [String.isEmpty_iff.mp hempty] at htext
    exact htext
  · exact htext

theorem rootOf_ofParts : rootOf (ofParts (rootOf path) ps) = rootOf path := by
  have htext := rootOf_root path (toList_join_ne_slash h)
  rw [ofParts]
  split
  · next hempty =>
    rw [String.isEmpty_iff.mp hempty] at htext
    exact htext
  · exact htext

end Normal

theorem parts_normal (path : String) : parts (normal path) = parts path :=
  parts_ofParts (fun _ => isPart_of_mem_parts) path

theorem rootOf_normal (path : String) : rootOf (normal path) = rootOf path :=
  rootOf_ofParts (fun _ => isPart_of_mem_parts) path

theorem normal_normal (path : String) : normal (normal path) = normal path := by
  rw [normal, parts_normal, rootOf_normal, normal]

/-- The path of a folder above has fewer parts. -/
theorem length_parts_of_mem_above {p : String} (h : p ∈ above path) :
    (parts p).length < (parts path).length := by
  obtain ⟨n, hn, rfl⟩ := List.mem_map.mp h
  have hlt : n < (parts path).length := List.mem_range.mp (List.mem_of_mem_tail hn)
  have hparts : ∀ part ∈ (parts path).take n, IsPart part := fun part hpart =>
    isPart_of_mem_parts (List.mem_of_mem_take hpart)
  rw [parts_ofParts hparts, List.length_take]
  omega

theorem normal_ne_of_mem_above {p : String} (h : p ∈ above path) : normal p ≠ normal path := by
  intro heq
  have hlength := length_parts_of_mem_above h
  rw [← parts_normal p, heq, parts_normal] at hlength
  exact lt_irrefl _ hlength

theorem normal_not_mem_above (path : String) : normal path ∉ above (normal path) := fun h =>
  lt_irrefl _ (length_parts_of_mem_above h)

end Parts

section Writing

variable {folder folder' : Folder} {path text : String}

/-- A file can be written at a path: no file stands for a folder above it, and no folder in its place. -/
def Takes (folder : Folder) (path : String) : Prop :=
  (∀ p ∈ above path, folder.text? p = none) ∧ folder.isFolder path = false

theorem write_of_takes (h : folder.Takes path) (text : String) :
    folder.write path text = .ok ⟨put folder.files (normal path) text⟩ := by
  obtain ⟨habove, hplace⟩ := h
  have hfind : (above path).find? (fun p => (folder.text? p).isSome) = none := by
    rw [List.find?_eq_none]
    intro p hp
    simp [habove p hp]
  rw [write, hfind]
  simp [hplace]

theorem takes_of_write (h : folder.write path text = .ok folder') : folder.Takes path := by
  rw [write] at h
  split at h
  · cases h
  · next hfind =>
    split_ifs at h with hplace
    refine ⟨fun p hp => ?_, by simpa using hplace⟩
    simpa using List.find?_eq_none.mp hfind p hp

theorem text?_normal (folder : Folder) (path : String) : folder.text? (normal path) = folder.text? path := by
  rw [text?, normal_normal, text?]

theorem write_normal (folder : Folder) (path text : String) :
    folder.write (normal path) text = folder.write path text := by
  have habove : above (normal path) = above path := by rw [above, parts_normal, rootOf_normal, above]
  have hparent : parent (normal path) = parent path := by rw [parent, parts_normal, rootOf_normal, parent]
  have hplace : folder.isFolder (normal path) = folder.isFolder path := by
    rw [isFolder, parts_normal, normal_normal, isFolder]
  rw [write, habove, hparent, hplace, normal_normal, write]

/-- Whether a file can be written at a path does not depend on its text. -/
theorem exists_write_iff : (∃ folder', folder.write path text = .ok folder') ↔ folder.Takes path := by
  constructor
  · intro h
    obtain ⟨folder', hwrite⟩ := h
    exact takes_of_write hwrite
  · intro h
    exact ⟨_, write_of_takes h text⟩

theorem lookup_put_of_ne {other : String} (h : other ≠ path) (files : List (String × String)) :
    (put files path text).lookup other = files.lookup other := by
  rw [put]
  split_ifs with hany
  · clear hany
    induction files with
    | nil => rfl
    | cons f files ih =>
      obtain ⟨name, old⟩ := f
      by_cases hname : name = path
      · subst hname
        simpa [List.lookup_cons, beq_false_of_ne h] using ih
      · rw [List.map_cons, if_neg (by simpa using hname), List.lookup_cons, List.lookup_cons, ih]
  · simp [List.lookup_append, List.lookup_cons, beq_false_of_ne h]

/-- Other files stay as they are. -/
theorem text?_of_write_of_ne {other : String} (hwrite : folder.write path text = .ok folder')
    (h : normal other ≠ normal path) : folder'.text? other = folder.text? other := by
  rw [write_of_takes (takes_of_write hwrite)] at hwrite
  obtain rfl := Except.ok.inj hwrite
  exact lookup_put_of_ne h folder.files

theorem mem_put {files : List (String × String)} {f : String × String} (h : f ∈ put files path text) :
    f = (path, text) ∨ f ∈ files := by
  rw [put] at h
  split_ifs at h
  · obtain ⟨g, hg, heq⟩ := List.mem_map.mp h
    split_ifs at heq
    · exact .inl heq.symm
    · exact .inr (heq ▸ hg)
  · exact (List.mem_append.mp h).elim .inr fun hone => .inl (List.mem_singleton.mp hone)

/-- Where a file was written one can be written again. -/
theorem takes_written (h : folder.write path text = .ok folder') : folder'.Takes path := by
  have htakes : folder.Takes path := takes_of_write h
  obtain ⟨habove, hplace⟩ := takes_of_write h
  refine ⟨fun p hp => ?_, ?_⟩
  · rw [text?_of_write_of_ne h (normal_ne_of_mem_above hp)]
    exact habove p hp
  · rw [write_of_takes htakes] at h
    obtain rfl := Except.ok.inj h
    obtain ⟨hparts, hfiles⟩ := Bool.or_eq_false_iff.mp hplace
    refine Bool.or_eq_false_iff.mpr ⟨hparts, List.any_eq_false.mpr fun f hf => ?_⟩
    rcases mem_put hf with rfl | hold
    · simpa using normal_not_mem_above path
    · exact List.any_eq_false.mp hfiles f hold

end Writing

end RecordFilter.Folder
