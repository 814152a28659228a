/-
The four files of a store in an empty directory.

A plain name joined to a base path leads to the entry of that name in the base directory (`Disk.Bare.vacant`),
whether or not the base ends in a slash. So in an empty directory plain and distinct names of the catalog, the
tablespace and their backups are four vacant places, and a store can start there (`fresh_of_bare`).
-/
import TableStore.Proofs.Store.Operations

namespace TableStore

/-! ## Joined paths -/

/-- the name of an entry, and of nothing else -/
structure Path.Plain (name : String) : Prop where
  slashless : '/' ∉ name.toList
  nulless : '\x00' ∉ name.toList
  named : name ≠ ""
  noDot : name ≠ "."
  noDots : name ≠ ".."

namespace Path

variable {name : String}

theorem Plain.backup (h : Plain name) : Plain (backup name) := by
  have long : 5 ≤ (Path.backup name).length := by
    rw [Path.backup, String.length_append]
    exact Nat.le_add_left 5 _
  refine ⟨?_, ?_, ?_, ?_, ?_⟩
  · simpa [Path.backup, backupSuffix] using h.slashless
  · simpa [Path.backup, backupSuffix] using h.nulless
  all_goals
    intro short
    rw [short] at long
    exact absurd long (by decide)

theorem pieces_ne_nil (cs : List Char) : pieces cs ≠ [] := by
  cases cs with
  | nil => simp [pieces]
  | cons c cs =>
    simp only [pieces]
    split
    · simp
    · split <;> simp

/-- a slash ends a piece -/
theorem pieces_append_slash (cs rest : List Char) : pieces (cs ++ '/' :: rest) = pieces cs ++ pieces rest := by
  induction cs with
  | nil => simp [pieces]
  | cons c cs ih =>
    by_cases slash : c = '/'
    · simp [pieces, slash, ih]
    · cases split : pieces cs with
      | nil => exact absurd split (pieces_ne_nil cs)
      | cons p ps => simp [pieces, slash, ih, split]

theorem Plain.toList_ne_nil (h : Plain name) : name.toList ≠ [] := by
  intro nil
  exact h.named (String.toList_eq_nil_iff.1 nil)

theorem join_eq (base : String) (h : Plain name) :
    join base name = if base.isEmpty || endsWithSlash base then base ++ name else base ++ "/" ++ name := by
  have relative : startsWithSlash name = false := by
    rw [startsWithSlash, beq_eq_false_iff_ne]
    intro slash
    exact h.slashless (List.mem_of_head? slash)
  rw [join, relative, if_neg Bool.false_ne_true]

/-- a slash stands between base and name, the base's own one or another, unless there is no base -/
theorem toList_join (base : String) (h : Plain name) :
    (base = "" ∧ (join base name).toList = name.toList)
      ∨ (∃ front, base.toList = front ++ ['/'] ∧ (join base name).toList = front ++ '/' :: name.toList)
      ∨ (join base name).toList = base.toList ++ '/' :: name.toList := by
  rw [join_eq base h]
  split
  · rename_i bare
    rcases Bool.or_eq_true_iff.1 bare with empty | slash
    · have nothing : base = "" := by simpa using empty
      exact .inl ⟨nothing, by simp [nothing]⟩
    · have last : base.toList.getLast? = some '/' := by simpa [endsWithSlash] using slash
      have ends := (List.dropLast_append_getLast? '/' last).symm
      refine .inr (.inl ⟨_, ends, ?_⟩)
      rw [String.toList_append, ends, List.append_assoc, List.dropLast_concat]
      rfl
  · exact .inr (.inr (by simp))

/-- a plain name is the last part behind any base -/
theorem parts_join (base : String) (h : Plain name) : parts (join base name) = parts base ++ [name] := by
  have piece := pieces_of_not_mem h.slashless
  have named := h.toList_ne_nil
  rcases toList_join base h with ⟨rfl, whole⟩ | ⟨front, ends, whole⟩ | whole
  · simp [parts, whole, piece, named, pieces]
  · simp [parts, whole, ends, pieces_append_slash, piece, named, pieces]
  · simp [parts, whole, pieces_append_slash, piece, named]

theorem endsWithSlash_join (base : String) (h : Plain name) : endsWithSlash (join base name) = false := by
  have last : (join base name).toList.getLast? = name.toList.getLast? := by
    rcases toList_join base h with ⟨-, whole⟩ | ⟨front, -, whole⟩ | whole
    · rw [whole]
    · rw [whole, List.getLast?_append_of_ne_nil _ (List.cons_ne_nil _ _), List.getLast?_cons_of_ne_nil h.toList_ne_nil]
    · rw [whole, List.getLast?_append_of_ne_nil _ (List.cons_ne_nil _ _), List.getLast?_cons_of_ne_nil h.toList_ne_nil]
  rw [endsWithSlash, last, beq_eq_false_iff_ne]
  intro slash
  exact h.slashless (List.mem_of_getLast? slash)

theorem join_clean {base : String} (clean : '\x00' ∉ base.toList) (h : Plain name) :
    '\x00' ∉ (join base name).toList ∧ (join base name).toList ≠ [] := by
  rcases toList_join base h with ⟨-, whole⟩ | ⟨front, ends, whole⟩ | whole
  · rw [whole]
    exact ⟨h.nulless, h.toList_ne_nil⟩
  · have apart : '\x00' ∉ front := by
      rw [ends] at clean
      exact fun mem => clean (List.mem_append_left _ mem)
    rw [whole]
    simp [apart, h.nulless]
  · rw [whole]
    simp [clean, h.nulless]

theorem backup_join (base : String) (h : Plain name) : backup (join base name) = join base (backup name) := by
  rw [join_eq base h, join_eq base h.backup, backup, backup]
  split <;> simp only [String.append_assoc]

end Path

/-! ## Empty directories -/

/-- there is nothing in a directory -/
structure Disk.Bare (d : Disk) (path : String) (dir : Location) : Prop where
  located : d.locate path = .ok dir
  directory : d.entry? dir = some .directory
  empty : ∀ e ∈ d.entries, dir <+: e.1 → e.1 = dir

variable {d : Disk} {base name : String} {dir : Location}

/-- every plain name is the place of a file to be made in an empty directory -/
theorem Disk.Bare.vacant (h : d.Bare base dir) (plain : Path.Plain name) :
    d.Vacant (Path.join base name) (dir ++ [name]) := by
  obtain ⟨clean, -, walked⟩ := Disk.locate_eq_ok_iff.1 h.located
  obtain ⟨nulless, named⟩ := Path.join_clean (by simpa using clean) plain
  refine ⟨Disk.locate_eq_ok_iff.2 ⟨by simpa using nulless, by simpa using named, ?_⟩, ?_,
    Path.endsWithSlash_join base plain⟩
  · rw [Path.parts_join base plain]
    refine Disk.walk_concat.2 ⟨dir, walked, h.directory, ?_⟩
    rw [Location.enter, if_neg plain.noDot, if_neg plain.noDots]
  · have missing : ∀ e ∈ d.entries, e.1 ≠ dir ++ [name] := by
      intro e mem eq
      have here := h.empty e mem (eq ▸ List.prefix_append dir [name])
      simp [here] at eq
    simpa [ Disk.entry?] using missing

/-- **A store can start in an empty directory**, if the names of its two files are plain and differ, also with the
suffix of the backups. -/
theorem Tables.fresh_of_bare {o : Options} {catalog tablespace : String} (h : d.Bare o.basePath dir)
    (catalogPath : o.catalogPath = Path.join o.basePath catalog)
    (tablespacePath : o.tablespacePath = Path.join o.basePath tablespace)
    (plainC : Path.Plain catalog) (plainT : Path.Plain tablespace)
    (distinct : [catalog, Path.backup catalog, tablespace, Path.backup tablespace].Nodup) : Fresh o d := by
  rw [Fresh, catalogPath, tablespacePath, Path.backup_join _ plainC, Path.backup_join _ plainT]
  refine ⟨_, _, _, _, h.vacant plainC, h.vacant plainC.backup, h.vacant plainT, h.vacant plainT.backup, ?_⟩
  exact distinct.map fun a b eq => List.singleton_injective (List.append_cancel_left eq)

/-- a store with the usual names can start on an empty disk -/
theorem Tables.fresh_default : Fresh {} {} := by
  have bare : ( { } : Disk).Bare "." [] := ⟨rfl, rfl, by simp⟩
  have catalog : Path.Plain "flatdb.catalog" := by constructor <;> decide
  have tablespace : Path.Plain "flatdb.data" := by constructor <;> decide
  exact fresh_of_bare bare rfl rfl catalog tablespace (by decide)

end TableStore
