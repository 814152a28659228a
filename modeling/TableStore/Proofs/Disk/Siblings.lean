/-
The place of a backup.

The backup of a file has the file's path with a suffix, so it is meant to stand beside the file. It does, whatever
dots and slashes the path has on its way: a path that leads to no directory and does not end in a slash ends in a
proper name, for the dots lead to directories only (`Rooted.enter`), and the suffix goes to that name alone
(`parts_backup`). So wherever a file can be, its backup can be too (`locate_backup`).
-/
import TableStore.Proofs.Disk.Names

namespace TableStore

/-! ## The last part of a path -/

namespace Path

theorem pieces_of_not_mem {cs : List Char} (h : '/' ∉ cs) : pieces cs = [cs] := by
  induction cs with
  | nil => rfl
  | cons c cs ih =>
    obtain ⟨apart, rest⟩ := List.ne_and_not_mem_of_not_mem_cons h
    simp only [pieces, Ne.symm apart, if_false, ih rest]

/-- a suffix without slashes goes to the last piece, which is empty only behind a slash -/
theorem pieces_append (cs : List Char) {suffix : List Char} (h : '/' ∉ suffix) :
    ∃ front last, pieces cs = front ++ [last] ∧ pieces (cs ++ suffix) = front ++ [last ++ suffix]
      ∧ (last = [] → cs = [] ∨ cs.getLast? = some '/') := by
  induction cs with
  | nil => exact ⟨[], [], rfl, pieces_of_not_mem h, fun _ => .inl rfl⟩
  | cons c cs ih =>
    obtain ⟨front, last, whole, extended, slash⟩ := ih
    by_cases eq : c = '/'
    · refine ⟨[] :: front, last, ?_, ?_, fun nil => .inr ?_⟩
      · simp [pieces, eq, whole]
      · simp [pieces, eq, extended]
      · rcases slash nil with empty | ends
        · simp [empty, eq]
        · simp [List.getLast?_cons, ends]
    · cases front with
      | nil =>
        refine ⟨[], c :: last, ?_, ?_, fun nil => nomatch nil⟩
        · simp [pieces, eq, whole]
        · simp [pieces, eq, extended]
      | cons first front =>
        refine ⟨(c :: first) :: front, last, ?_, ?_, fun nil => .inr ?_⟩
        · simp [pieces, eq, whole]
        · simp [pieces, eq, extended]
        · rcases slash nil with empty | ends
          · rw [empty] at whole
            simp [pieces] at whole
          · simp [List.getLast?_cons, ends]

theorem parts_backup {path : String} (named : path.isEmpty = false) (plain : endsWithSlash path = false) :
    ∃ dirs name, parts path = dirs ++ [name] ∧ parts (backup path) = dirs ++ [name ++ backupSuffix] := by
  have slashless : '/' ∉ backupSuffix.toList := by decide
  obtain ⟨front, last, whole, extended, slash⟩ := pieces_append path.toList slashless
  have proper : last ≠ [] := by
    intro nil
    rcases slash nil with empty | ends
    · have nothing : path = "" := String.toList_eq_nil_iff.1 empty
      simp [nothing] at named
    · simp [endsWithSlash, ends] at plain
  refine ⟨(front.filter (!·.isEmpty)).map String.ofList, String.ofList last, ?_, ?_⟩
  · simp [parts, whole, proper]
  · simp only [parts, backup, String.toList_append, extended]
    simp [proper]

theorem endsWithSlash_backup (path : String) : endsWithSlash (backup path) = false := by
  simp [endsWithSlash, backup, backupSuffix]

end Path

/-! ## Walks -/

namespace Disk

variable {d : Disk}

/-- all directories above a place are there -/
def Rooted (d : Disk) (loc : Location) : Prop :=
  ∀ above, above <+: loc → above ≠ loc → d.entry? above = some .directory

theorem Rooted.all {loc : Location} (h : d.Rooted loc) (directory : d.entry? loc = some .directory) :
    ∀ above, above <+: loc → d.entry? above = some .directory := by
  intro above prefix'
  by_cases eq : above = loc
  · exact eq ▸ directory
  · exact h above prefix' eq

theorem Rooted.enter {loc : Location} (h : d.Rooted loc) (directory : d.entry? loc = some .directory) (name : String) :
    d.Rooted (loc.enter name) := by
  intro above prefix' apart
  have all := h.all directory
  simp only [Location.enter] at prefix' apart
  split at prefix'
  · exact all above prefix'
  · split at prefix'
    · exact all above (prefix'.trans (List.dropLast_prefix loc))
    · rename_i here up
      rw [if_neg here, if_neg up] at apart
      exact all above ((List.prefix_concat_iff.1 prefix').resolve_left apart)

theorem Rooted.walk {loc target : Location} {names : List String} (h : d.Rooted loc)
    (walked : d.walk loc names = .ok target) : d.Rooted target := by
  induction names generalizing loc with
  | nil =>
    cases walked
    exact h
  | cons name rest ih =>
    rw [Disk.walk] at walked
    split at walked
    · cases walked
    · cases walked
    · rename_i directory
      exact ih (h.enter directory name) walked

theorem rooted_root : d.Rooted [] := by
  intro above prefix' apart
  exact absurd (List.prefix_nil.1 prefix') apart

/-- a walk to a last name is one to its directory and a step -/
theorem walk_concat {loc target : Location} {names : List String} {name : String} :
    d.walk loc (names ++ [name]) = .ok target ↔
      ∃ dir, d.walk loc names = .ok dir ∧ d.entry? dir = some .directory ∧ dir.enter name = target := by
  induction names generalizing loc with
  | nil =>
    simp only [List.nil_append, walk, Except.ok.injEq, exists_eq_left']
    split
    · rename_i missing
      simp [missing]
    · rename_i node file
      simp [file]
    · rename_i directory
      simp [directory]
  | cons first rest ih =>
    rw [List.cons_append, walk, walk]
    split
    · simp
    · simp
    · exact ih

/-- where a file can be, there can be its backup, under the same name with the suffix -/
theorem locate_backup {path : String} {loc : Location} (located : d.locate path = .ok loc)
    (plain : Path.endsWithSlash path = false) (noDirectory : d.entry? loc ≠ some .directory) :
    ∃ dir name, loc = dir ++ [name]
      ∧ d.locate (Path.backup path) = .ok (dir ++ [name ++ Path.backupSuffix]) := by
  obtain ⟨clean, named, walked⟩ := locate_eq_ok_iff.1 located
  obtain ⟨dirs, name, whole, extended⟩ := Path.parts_backup named plain
  rw [whole] at walked
  obtain ⟨dir, toDir, directory, step⟩ := walk_concat.1 walked
  have all := (rooted_root.walk toDir).all directory
  have noDot : name ≠ "." := by
    intro dot
    rw [dot] at step
    exact noDirectory (step ▸ directory)
  have noDots : name ≠ ".." := by
    intro dots
    rw [dots] at step
    exact noDirectory (step ▸ all _ (List.dropLast_prefix dir))
  have long : 5 ≤ (name ++ Path.backupSuffix).length := by
    rw [String.length_append]
    exact Nat.le_add_left 5 _
  refine ⟨dir, name, ?_, locate_eq_ok_iff.2 ⟨?_, ?_, ?_⟩⟩
  · rw [← step, Location.enter, if_neg noDot, if_neg noDots]
  · have noNul : Path.backupSuffix.toList.contains '\x00' = false := by decide
    simpa [Path.backup, String.toList_append] using ⟨by simpa using clean, by simpa using noNul⟩
  · simp [Path.backup, Path.backupSuffix]
  · rw [extended]
    refine walk_concat.2 ⟨dir, toDir, directory, ?_⟩
    rw [Location.enter, if_neg, if_neg]
    · intro eq
      rw [eq] at long
      exact absurd long (by decide)
    · intro eq
      rw [eq] at long
      exact absurd long (by decide)

/-- beside a place where a file can be there is a backup, a directory in its place, or a vacant place for one -/
theorem backup_cases {path : String} {loc : Location} (located : d.locate path = .ok loc)
    (plain : Path.endsWithSlash path = false) (noDirectory : d.entry? loc ≠ some .directory) :
    (∃ spare copy, d.Names (Path.backup path) spare copy)
      ∨ (∃ spare, d.locate (Path.backup path) = .ok spare ∧ d.entry? spare = some .directory)
      ∨ ∃ spare, spare ≠ loc ∧ d.Vacant (Path.backup path) spare := by
  obtain ⟨dir, name, whole, located⟩ := locate_backup located plain noDirectory
  have plain := Path.endsWithSlash_backup path
  have apart : dir ++ [name ++ Path.backupSuffix] ≠ loc := by
    intro same
    have equal : name ++ Path.backupSuffix = name := by
      simpa [whole] using same
    have lengths := congrArg String.length equal
    rw [String.length_append] at lengths
    have : Path.backupSuffix.length = 5 := by decide
    omega
  rcases entry : d.entry? (dir ++ [name ++ Path.backupSuffix]) with _ | _ | copy
  · exact .inr (.inr ⟨_, apart, located, entry, plain⟩)
  · exact .inr (.inl ⟨_, located, entry⟩)
  · exact .inl ⟨_, copy, located, entry, plain⟩

/-- where a file can be and no backup is, there is a vacant place for one -/
theorem vacant_backup {path : String} {loc : Location} (located : d.locate path = .ok loc)
    (plain : Path.endsWithSlash path = false) (noDirectory : d.entry? loc ≠ some .directory)
    (missing : d.isThere (Path.backup path) = false) : ∃ spare, spare ≠ loc ∧ d.Vacant (Path.backup path) spare := by
  rcases backup_cases located plain noDirectory with ⟨spare, copy, named⟩ | ⟨spare, located, directory⟩ | vacant
  · rw [named.isThere] at missing
    cases missing
  · have found : d.lookup (Path.backup path) = .ok (spare, .directory) := by
      simp only [Disk.lookup, located, directory, bind, Except.bind]
      rfl
    rw [Disk.isThere, found] at missing
    cases missing
  · exact vacant

theorem Names.vacant_backup {path : String} {loc : Location} {node : Nat} (h : d.Names path loc node)
    (missing : d.isThere (Path.backup path) = false) : ∃ spare, spare ≠ loc ∧ d.Vacant (Path.backup path) spare :=
  Disk.vacant_backup h.located h.plain (by simp [h.entry]) missing

end Disk
end TableStore
