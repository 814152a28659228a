/-
What paths name on a disk, and what calls do to that.

A path either names a file (`Names`), or a file could be made there (`Vacant`), or neither. Both depend on the entries
of the disk only, so writing and emptying files change no name (`Names.congr`, `Vacant.congr`). A new file takes the
vacant place of its path and leaves what all other paths name (`Names.addFile`, `Vacant.addFile`); taking it away
again brings back the entries as they were (`entries_erase_addFile`).

The contents of files are those of their nodes. A named node is a node of the disk (`Names.node_lt`), so a node that
is made later is another one.
-/
import Mathlib.Tactic
import TableStore.Disk.Program

namespace TableStore.Disk

/-! ## Equal disks -/

theorem ext_entries {d e : Disk} (entries : d.entries = e.entries) (nodes : d.nodes = e.nodes) : d = e := by
  cases d
  cases e
  cases entries
  cases nodes
  rfl

section Congr

variable {d e : Disk} (same : d.entries = e.entries)
include same

theorem entry_congr (loc : Location) : d.entry? loc = e.entry? loc := by
  simp only [ Disk.entry?, same]

theorem walk_congr (loc : Location) (names : List String) : d.walk loc names = e.walk loc names := by
  induction names generalizing loc with
  | nil => rfl
  | cons name rest ih => simp only [walk, entry_congr same, ih]

theorem locate_congr (path : String) : d.locate path = e.locate path := by
  simp only [locate, walk_congr same]

end Congr

/-! ## Contents -/

theorem content_setContent {d : Disk} {node : Nat} (h : node < d.nodes.size) (bytes : Bytes) :
    (d.setContent node bytes).content node = bytes := by
  simp [content, setContent, h]

theorem content_setContent_ne {d : Disk} {node other : Nat} (h : node ≠ other) (bytes : Bytes) :
    (d.setContent node bytes).content other = d.content other := by
  simp [content, setContent, Array.getElem?_setIfInBounds_ne h, Array.getD_eq_getD_getElem?]

theorem size_setContent {d : Disk} {node : Nat} {bytes : Bytes} : (d.setContent node bytes).nodes.size = d.nodes.size := by
  simp [setContent]

theorem setContent_setContent (d : Disk) (node : Nat) (first second : Bytes) :
    (d.setContent node first).setContent node second = d.setContent node second :=
  ext_entries rfl (by simp [setContent])

theorem setContent_content (d : Disk) (node : Nat) : d.setContent node (d.content node) = d := by
  refine ext_entries rfl (Array.ext (by simp [setContent]) fun i h₁ h₂ => ?_)
  by_cases eq : node = i
  · subst eq
    simp [setContent, content, h₂]
  · simp only [setContent, Array.getElem_setIfInBounds_ne h₂ eq]

/-! ## Names -/

/-- where a path leads: it is no text that no file system takes, and the names in it can be walked -/
theorem locate_eq_ok_iff {d : Disk} {path : String} {loc : Location} :
    d.locate path = .ok loc ↔
      path.toList.contains '\x00' = false ∧ path.isEmpty = false ∧ d.walk [] (Path.parts path) = .ok loc := by
  rw [locate]
  split
  · rename_i nul
    simp only [nul, reduceCtorEq, false_and]
  · rename_i clean
    split
    · rename_i empty
      simp [empty]
    · rename_i named
      have walked : (d.walk [] (Path.parts path)).mapError Fault.system = .ok loc
          ↔ d.walk [] (Path.parts path) = .ok loc := by
        cases d.walk [] (Path.parts path) <;> simp [Except.mapError]
      simp only [walked, Bool.eq_false_iff.2 clean, Bool.eq_false_iff.2 named, true_and]

/-- where names lead depends on the directories on the way only -/
theorem walk_mono {d e : Disk} (directories : ∀ loc, d.entry? loc = some .directory → e.entry? loc = some .directory)
    {start target : Location} {names : List String} (h : d.walk start names = .ok target) :
    e.walk start names = .ok target := by
  induction names generalizing start with
  | nil => exact h
  | cons name rest ih =>
    rw [walk] at h ⊢
    split at h
    · cases h
    · cases h
    · rename_i directory
      rw [directories start directory]
      exact ih h

theorem locate_mono {d e : Disk} (directories : ∀ loc, d.entry? loc = some .directory → e.entry? loc = some .directory)
    {path : String} {target : Location} (h : d.locate path = .ok target) : e.locate path = .ok target := by
  obtain ⟨clean, named, walked⟩ := locate_eq_ok_iff.1 h
  exact locate_eq_ok_iff.2 ⟨clean, named, walk_mono directories walked⟩

/-- a path names a file -/
structure Names (d : Disk) (path : String) (loc : Location) (node : Nat) : Prop where
  located : d.locate path = .ok loc
  entry : d.entry? loc = some (.file node)
  plain : Path.endsWithSlash path = false

/-- there is nothing at a path, and a file can be made there -/
structure Vacant (d : Disk) (path : String) (loc : Location) : Prop where
  located : d.locate path = .ok loc
  entry : d.entry? loc = none
  plain : Path.endsWithSlash path = false

theorem Names.congr {d e : Disk} {path : String} {loc : Location} {node : Nat} (h : d.Names path loc node)
    (same : d.entries = e.entries) : e.Names path loc node :=
  ⟨locate_congr same path ▸ h.located, entry_congr same loc ▸ h.entry, h.plain⟩

theorem Vacant.congr {d e : Disk} {path : String} {loc : Location} (h : d.Vacant path loc)
    (same : d.entries = e.entries) : e.Vacant path loc :=
  ⟨locate_congr same path ▸ h.located, entry_congr same loc ▸ h.entry, h.plain⟩

theorem Names.lookup {d : Disk} {path : String} {loc : Location} {node : Nat} (h : d.Names path loc node) :
    d.lookup path = .ok (loc, .file node) := by
  simp only [Disk.lookup, h.located, h.entry, h.plain, bind, Except.bind]
  rfl

theorem Vacant.lookup {d : Disk} {path : String} {loc : Location} (h : d.Vacant path loc) :
    d.lookup path = .error (.system .noEntry) := by
  simp only [Disk.lookup, h.located, h.entry, bind, Except.bind]
  rfl

theorem Names.isThere {d : Disk} {path : String} {loc : Location} {node : Nat} (h : d.Names path loc node) :
    d.isThere path = true := by
  rw [Disk.isThere, h.lookup]
  rfl

theorem Vacant.isThere {d : Disk} {path : String} {loc : Location} (h : d.Vacant path loc) :
    d.isThere path = false := by
  rw [Disk.isThere, h.lookup]
  rfl

theorem names_of_lookup {d : Disk} {path : String} {loc : Location} {node : Nat}
    (h : d.lookup path = .ok (loc, .file node)) : d.Names path loc node := by
  rcases located : d.locate path with fault | found
  · simp [Disk.lookup, located, bind, Except.bind] at h
  · simp only [Disk.lookup, located, bind, Except.bind] at h
    split at h
    · cases h
    · rename_i n entry
      split at h
      · cases h
      · rename_i plain
        cases h
        exact ⟨located, entry, by simpa using plain⟩
    · cases h

theorem Names.openForWriting {d : Disk} {path : String} {loc : Location} {node : Nat} (h : d.Names path loc node) :
    d.openForWriting path = .ok (node, d) := by
  simp only [Disk.openForWriting, h.located, h.entry, h.plain, bind, Except.bind]
  rfl

theorem Vacant.openForWriting {d : Disk} {path : String} {loc : Location} (h : d.Vacant path loc) :
    d.openForWriting path = .ok (d.nodes.size, d.addFile loc) := by
  simp only [Disk.openForWriting, h.located, h.entry, h.plain, bind, Except.bind]
  rfl

/-- what is opened to be written is there, or it is made -/
theorem openForWriting_cases {d d₁ : Disk} {path : String} {k : Nat} (opened : d.openForWriting path = .ok (k, d₁)) :
    ∃ loc, (d.Names path loc k ∧ d₁ = d) ∨ (d.Vacant path loc ∧ k = d.nodes.size ∧ d₁ = d.addFile loc) := by
  rcases located : d.locate path with fault | loc
  · simp [Disk.openForWriting, located, bind, Except.bind] at opened
  · simp only [Disk.openForWriting, located, bind, Except.bind] at opened
    split at opened
    · cases opened
    · rename_i plain
      have noSlash : Path.endsWithSlash path = false := by simpa using plain
      split at opened
      · cases opened
      · rename_i node entry
        cases opened
        exact ⟨loc, .inl ⟨⟨located, entry, noSlash⟩, rfl⟩⟩
      · rename_i entry
        cases opened
        exact ⟨loc, .inr ⟨⟨located, entry, noSlash⟩, rfl, rfl⟩⟩

/-- what has a name is an entry, or the root -/
theorem mem_of_named {d : Disk} {loc : Location} {entry : Entry} (h : d.entry? loc = some entry)
    (below : loc ≠ []) : (loc, entry) ∈ d.entries := by
  rw [ Disk.entry?, if_neg below] at h
  obtain ⟨⟨found, _⟩, mem, rfl⟩ := Option.map_eq_some_iff.1 h
  have eq : found = loc := by simpa using List.find?_some mem
  exact eq ▸ List.mem_of_find?_eq_some mem

theorem mem_of_file {d : Disk} {loc : Location} {node : Nat} (h : d.entry? loc = some (.file node)) :
    (loc, .file node) ∈ d.entries := by
  refine mem_of_named h ?_
  rintro rfl
  simp [ Disk.entry?] at h

theorem node_lt_of_file {d : Disk} {loc : Location} {node : Nat} (h : d.entry? loc = some (.file node)) :
    node < d.nodes.size := d.named_lt node (List.mem_filterMap.2 ⟨_, mem_of_file h, rfl⟩)

theorem Names.node_lt {d : Disk} {path : String} {loc : Location} {node : Nat} (h : d.Names path loc node) :
    node < d.nodes.size := node_lt_of_file h.entry

/-- no two entries are of one node -/
def Apart (first second : Location × Entry) : Prop := ∀ n, first.2.node? = some n → second.2.node? ≠ some n

instance : Std.Symm Apart where
  symm _ _ apart n second first := apart n first second

theorem pairwise_apart (d : Disk) : d.entries.Pairwise Apart :=
  (List.pairwise_filterMap.1 d.named_nodup).imp fun apart n first second => apart n first n second rfl

/-- no node has names in two places -/
theorem loc_eq_of_file {d : Disk} {loc loc' : Location} {node : Nat} (h : d.entry? loc = some (.file node))
    (h' : d.entry? loc' = some (.file node)) : loc = loc' := by
  by_contra ne
  have apart := d.pairwise_apart.forall (mem_of_file h) (mem_of_file h') fun eq => ne (congrArg Prod.fst eq)
  exact apart node rfl rfl

theorem Names.loc_eq {d : Disk} {path path' : String} {loc loc' : Location} {node : Nat} (h : d.Names path loc node)
    (h' : d.Names path' loc' node) : loc = loc' := loc_eq_of_file h.entry h'.entry

/-! ## New files -/

section New

variable {d : Disk} {loc : Location}

theorem entry_addFile_ne {other : Location} (h : other ≠ loc) : Disk.entry? (d.addFile loc) other = d.entry? other := by
  have apart : (loc == other) = false := by simpa using Ne.symm h
  simp [ Disk.entry?, addFile, apart]

theorem entry_addFile_self (h : d.entry? loc = none) : Disk.entry? (d.addFile loc) loc = some (.file d.nodes.size) := by
  rw [ Disk.entry?] at h ⊢
  split at h
  · cases h
  · rename_i below
    have missing : d.entries.find? (·.1 == loc) = none := by simpa using h
    simp [below, addFile, List.find?_append, missing]

theorem entry_addFile {other : Location} {entry : Entry} (vacant : d.entry? loc = none)
    (h : d.entry? other = some entry) : Disk.entry? (d.addFile loc) other = some entry := by
  rw [entry_addFile_ne, h]
  intro eq
  rw [eq, vacant] at h
  cases h

theorem locate_addFile {path : String} {target : Location} (vacant : d.entry? loc = none)
    (h : d.locate path = .ok target) : (d.addFile loc).locate path = .ok target :=
  locate_mono (fun _ directory => entry_addFile vacant directory) h

theorem Names.addFile {path : String} {target : Location} {node : Nat} (h : d.Names path target node)
    (vacant : d.entry? loc = none) : (d.addFile loc).Names path target node :=
  ⟨locate_addFile vacant h.located, entry_addFile vacant h.entry, h.plain⟩

/-- an older file has no name on the disk with a new file that it had not before -/
theorem Names.of_addFile {path : String} {target : Location} {node : Nat} (h : (d.addFile loc).Names path target node)
    (vacant : d.entry? loc = none) (older : node < d.nodes.size) : d.Names path target node := by
  have kept : ∀ {other entry}, Disk.entry? (d.addFile loc) other = some entry → entry ≠ .file d.nodes.size →
      d.entry? other = some entry := by
    intro other entry found apart
    rwa [entry_addFile_ne] at found
    rintro rfl
    rw [entry_addFile_self vacant] at found
    exact apart (Option.some.inj found).symm
  refine ⟨locate_mono (fun _ directory => kept directory (by simp)) h.located, kept h.entry ?_, h.plain⟩
  simp [older.ne]

theorem Vacant.addFile {path : String} {target : Location} (h : d.Vacant path target) (vacant : d.entry? loc = none)
    (apart : target ≠ loc) : (d.addFile loc).Vacant path target :=
  ⟨locate_addFile vacant h.located, (entry_addFile_ne apart).trans h.entry, h.plain⟩

theorem Vacant.names_addFile {path : String} (h : d.Vacant path loc) :
    (d.addFile loc).Names path loc d.nodes.size :=
  ⟨locate_addFile h.entry h.located, entry_addFile_self h.entry, h.plain⟩

theorem content_addFile {node : Nat} (h : node < d.nodes.size) : (d.addFile loc).content node = d.content node := by
  have ne : node ≠ d.nodes.size := by omega
  simp [content, Disk.addFile, Array.getD_eq_getD_getElem?, Array.getElem?_push, ne]

theorem content_addFile_new : (d.addFile loc).content d.nodes.size = [] := by
  simp [content, Disk.addFile, Array.getD_eq_getD_getElem?]

theorem size_addFile : (d.addFile loc).nodes.size = d.nodes.size + 1 := by simp [Disk.addFile]

/-- the disk with a new file of some bytes -/
def withFile (d : Disk) (loc : Location) (bytes : Bytes) : Disk := (d.addFile loc).setContent d.nodes.size bytes

theorem withFile_nil : d.withFile loc [] = d.addFile loc := by
  have empty : (d.addFile loc).content d.nodes.size = [] := content_addFile_new
  conv_lhs => rw [withFile, ← empty]
  exact setContent_content _ _

theorem size_withFile (bytes : Bytes) : (d.withFile loc bytes).nodes.size = d.nodes.size + 1 := by
  rw [withFile, size_setContent, size_addFile]

theorem content_withFile_new (bytes : Bytes) : (d.withFile loc bytes).content d.nodes.size = bytes :=
  content_setContent (by rw [size_addFile]; exact Nat.lt_succ_self _) bytes

theorem content_withFile {node : Nat} (h : node < d.nodes.size) (bytes : Bytes) :
    (d.withFile loc bytes).content node = d.content node := by
  have ne : d.nodes.size ≠ node := by omega
  rw [withFile, content_setContent_ne ne, content_addFile h]

/-- taking the new file away again leaves the entries that were there before it -/
theorem entries_erase_addFile (vacant : d.entry? loc = none) : ((d.addFile loc).erase loc).entries = d.entries := by
  have below : loc ≠ [] := by
    intro root
    simp [ Disk.entry?, root] at vacant
  have missing : ∀ e ∈ d.entries, e.1 ≠ loc := by
    simpa [ Disk.entry?, below] using vacant
  simp only [erase, keep, Disk.addFile, List.filter_append]
  rw [List.filter_eq_self.2 fun e mem => by simpa using missing e mem]
  simp

end New

/-! ## Empty files -/

/-- the disk, with a new empty file if there was nothing at its place -/
def Made (d : Disk) (loc : Location) (d' : Disk) : Prop := d' = d ∨ d.entry? loc = none ∧ d' = d.addFile loc

/-- a file that can be made, or is there and empty -/
inductive Blank (d : Disk) (path : String) (loc : Location) : Prop where
  | absent : d.Vacant path loc → Blank d path loc
  | empty {node : Nat} : d.Names path loc node → d.content node = [] → Blank d path loc

section Empty

variable {d d' : Disk} {path : String} {loc other : Location} {node : Nat}

theorem Made.names (h : d.Made loc d') (named : d.Names path other node) : d'.Names path other node := by
  rcases h with rfl | ⟨vacant, rfl⟩
  · exact named
  · exact named.addFile vacant

theorem Made.vacant (h : d.Made loc d') (absent : d.Vacant path other) (apart : other ≠ loc) :
    d'.Vacant path other := by
  rcases h with rfl | ⟨vacant, rfl⟩
  · exact absent
  · exact absent.addFile vacant apart

theorem Made.content (h : d.Made loc d') (lt : node < d.nodes.size) : d'.content node = d.content node := by
  rcases h with rfl | ⟨-, rfl⟩
  · rfl
  · exact content_addFile lt

theorem Blank.made (h : d.Blank path other) (made : d.Made loc d') (apart : other ≠ loc) : d'.Blank path other := by
  cases h with
  | absent vacant => exact .absent (made.vacant vacant apart)
  | empty named empty => exact .empty (made.names named) ((made.content named.node_lt).trans empty)

end Empty

end TableStore.Disk
