/-
Loading the options twice.

A file that is there is read, and a read changes nothing, so a second load says what the first one said
(`run_load_again`). A file that is not there is made, and opened for that like a data file: a backup beside it is put in
its place first. The default options are then written behind what the backup had (`run_writeFile_cases`), while the load
says that it has the defaults. So the second load reads the bytes of the backup with the defaults behind them. Behind
blanks options are read back from what is written for them (`decode_encode`), and behind other bytes the defaults are no
document (`decode_behind`); so the second load says the same only if the backup was blank (`load_twice`).
-/
import TableStore.OptionsFile
import TableStore.Proofs.Disk.Restarting
import TableStore.Proofs.Json.Behind
import TableStore.Proofs.Json.Lines
import TableStore.Proofs.Store.Reading

namespace TableStore

open DataFile (run_then run_then_error run_lift fresh)
open Program (perform)

namespace Disk

variable {d d₁ : Disk} {path : String} {k : Nat}

/-- what is opened to be written and was not there is a new file -/
theorem vacant_of_openForWriting (missing : d.isThere path = false) (opened : d.openForWriting path = .ok (k, d₁)) :
    ∃ loc, d.Vacant path loc ∧ k = d.nodes.size ∧ d₁ = d.addFile loc := by
  obtain ⟨loc, there | made⟩ := openForWriting_cases opened
  · rw [there.1.isThere] at missing
    cases missing
  · exact ⟨loc, made⟩

end Disk

namespace Options

variable {d d' : Disk} {path : String} {var : Option String} {o : Options}

/-- the options that a file has, with what the place of the file and the variable make of them -/
def placed (path : String) (var : Option String) (o : Options) : Options :=
  { o with
    basePath := baseOf path
    testMode := o.testMode || var == some "1" }

/-- the bytes that a load finds in a backup beside a file that is not there; the file it makes begins with them -/
def leftBehind (d : Disk) (path : String) : Bytes :=
  if d.isThere path || Path.isBackup path then [] else (d.bytesAt? (Path.backup path)).getD []

/-! ## What is written for options -/

section Documents
open Json Json.Reading

theorem fields_distinct : (fields.map (·.name)).Nodup := by decide

/-- a line for every field, in their order -/
theorem fillsLines (o : Options) :
    FillsLines fields
      [("base_path", .text o.basePath), ("catalog_file_name", .text o.catalogFile),
        ("tablespace_file_name", .text o.tablespaceFile), ("server_port", .ofNat o.serverPort.toNat),
        ("server_n_worker_threads", .ofNat o.workerThreads.toNat), ("use_debug_logging", .bool o.debugLogging),
        ("test_mode", .bool o.testMode)] {} o := by
  have text (s : String) : TakesBefore text (render (.text s)) s := (takes_text s).before
  have flag (b : Bool) : TakesBefore flag (render (.bool b)) b := (takes_flag b).before
  have port : TakesBefore port (render (.ofNat o.serverPort.toNat)) o.serverPort := by
    have small : o.serverPort.toNat ≤ 0xFFFF := Nat.le_of_lt_succ o.serverPort.toNat_lt
    have word : o.serverPort.toNat ≤ Numeral.maxWord := small.trans (by decide)
    have counted := (takesBefore_count small word "u16").map Nat.toUInt16
    rwa [Nat.toUInt16_eq, UInt16.ofNat_toNat] at counted
  have threads : TakesBefore threads (render (.ofNat o.workerThreads.toNat)) o.workerThreads := by
    have small : o.workerThreads.toNat ≤ 0xFFFFFFFFFFFFFFFF := Nat.le_of_lt_succ o.workerThreads.toNat_lt
    have counted := (takesBefore_count small small "usize").map Nat.toUInt64
    rwa [Nat.toUInt64_eq, UInt64.ofNat_toNat] at counted
  unfold fields
  refine .optional blanks_text (text _) ?_
  refine .optional blanks_text (text _) ?_
  refine .optional blanks_text (text _) ?_
  refine .optional ((blanks_count _ _).map _) port ?_
  refine .optional ((blanks_count _ _).map _) threads ?_
  refine .optional blanks_flag (flag _) ?_
  refine .optional blanks_flag (flag _) ?_
  exact .nil

/-- options are read back from what is written for them, behind blanks too -/
theorem decode_encode {blanks : Bytes} (all : blanks.all isBlank = true) (o : Options) :
    decode (blanks ++ encode o) = .ok o :=
  document_eq ((blanks_record "FlatDbOptions" fields {}).takes blanks all
    (takes_record_lines fields_distinct "FlatDbOptions" (fillsLines o)))

/-- no option is an object -/
theorem fieldsStay : FieldsStay fields := by
  unfold fields
  refine .optional (fun _ edge => stays_text edge) ?_
  refine .optional (fun _ edge => stays_text edge) ?_
  refine .optional (fun _ edge => stays_text edge) ?_
  refine .optional (fun _ edge => (stays_count edge _ _).map _) ?_
  refine .optional (fun _ edge => (stays_count edge _ _).map _) ?_
  refine .optional (fun _ edge => stays_flag edge) ?_
  refine .optional (fun _ edge => stays_flag edge) ?_
  exact fieldsStay_nil

/-- the default options behind bytes that are not blank cannot be read -/
theorem decode_behind {bytes : Bytes} (some : bytes.all isBlank = false) :
    ∃ fault, decode (bytes ++ encode {}) = .error fault := by
  have edge : Edge (encode {}) := .inr ⟨_, rfl⟩
  have few : closers (encode {}) ≤ 1 := by decide +kernel
  exact document_behind edge (by decide) few fieldsStay "FlatDbOptions" {} some

end Documents

/-- a load reads the file that is there, or else makes one -/
theorem run_load (d : Disk) (path : String) (var : Option String) :
    (load path var).run.run d
      = (((if d.isThere path then readFile path else writeFile path).run.run d).1.map (placed path var),
          ((if d.isThere path then readFile path else writeFile path).run.run d).2) := by
  have asked : (perform (.exists_ path)).run d = (d.isThere path, d) := rfl
  rw [load, run_then (run_lift asked)]
  split
  · rcases ran : (readFile path).run.run d with ⟨e | o, d'⟩
    · exact run_then_error ran _
    · exact run_then ran _
  · rcases ran : (writeFile path).run.run d with ⟨e | o, d'⟩
    · exact run_then_error ran _
    · exact run_then ran _

/-! ## A file that is there -/

theorem still_openAs (kind : Document) (path : String) : Still (Document.openAs kind path .readOnly) := by
  rw [Document.openAs, DataFile.openAs_readOnly]
  have opening : Still (ExceptT.mk (perform (.openAs path .read)) : ExceptT Fault Program Handle) :=
    DataFile.still_openRead path
  have counting (h : Handle) : Still (ExceptT.mk (perform (.length h)) : ExceptT Fault Program Nat) :=
    ⟨fun _ => rfl, fun _ _ same => same, fun _ => trivial⟩
  exact (opening.bind fun handle => (counting handle).bind fun size => still_pure _).adapt _

/-- reading the options changes nothing, whatever is at the path -/
theorem still_readFile (path : String) : Still (readFile path) :=
  (still_openAs .options path).bind fun _ =>
    (Document.still_bytes _ _).bind fun _ => Document.still_decoded _ _ _ _

theorem run_readFile {loc : Location} {node : Nat} (named : d.Names path loc node) :
    (readFile path).run.run d
      = ((decode (d.content node)).mapError fun fault => .cannotDecode .options path fault.message, d) := by
  have plain : (DataFile.openPlain path .readOnly).run.run d = _ :=
    DataFile.run_openPlain (DataFile.exec_openRead named)
  rw [← DataFile.openAs_readOnly] at plain
  have opened : (Document.openAs .options path .readOnly).run.run d = _ := Document.run_guarded plain _
  rw [readFile, run_then opened, run_then (Document.run_bytes_of_entry rfl .options), Document.run_decoded]

/-! ## A file that is made -/

theorem run_openAs_directory {loc spare : Location} (vacant : d.Vacant path loc) (proper : Path.isBackup path = false)
    (located : d.locate (Path.backup path) = .ok spare) (directory : d.entry? spare = some .directory) :
    (DataFile.openAs path .readWrite).run.run d = (.error (.system .isDirectory), d.addFile loc) := by
  have found : (d.addFile loc).lookup (Path.backup path) = .ok (spare, .directory) := by
    simp only [Disk.lookup, Disk.locate_addFile vacant.entry located, Disk.entry_addFile vacant.entry directory, bind,
      Except.bind]
    rfl
  have recovery := DataFile.run_recover_directory (f := fresh path d.nodes.size 0) found
  exact DataFile.run_openAs_recovering (DataFile.run_openPlain_made vacant) recovery proper

/-- the place of a file that is not there can be opened or not; if so, the file begins with what a backup has -/
theorem run_openAs_cases (missing : d.isThere path = false) :
    (∃ fault d₁, (DataFile.openAs path .readWrite).run.run d = (.error fault, d₁)) ∨
      ∃ f d₁ loc node, (DataFile.openAs path .readWrite).run.run d = (.ok f, d₁) ∧ f.Writes node
        ∧ d₁.Names path loc node ∧ d₁.content node = leftBehind d path ∧ f.position = (leftBehind d path).length := by
  rcases opened : d.openForWriting path with fault | ⟨k, d₁⟩
  · exact .inl ⟨fault, d, DataFile.run_openAs_refused opened⟩
  · obtain ⟨loc, vacant, rfl, rfl⟩ := Disk.vacant_of_openForWriting missing opened
    have plain := DataFile.run_openPlain_made vacant
    by_cases backup : Path.isBackup path = true
    · have none : leftBehind d path = [] := by
        simp [leftBehind, backup]
      refine .inr ⟨_, _, loc, _, DataFile.run_openAs_backup plain backup, rfl, vacant.names_addFile, ?_, ?_⟩
      · rw [none, Disk.content_addFile_new]
      · rw [none]
        rfl
    · have proper : Path.isBackup path = false := by simpa using backup
      have left : leftBehind d path = (d.bytesAt? (Path.backup path)).getD [] := by
        simp [leftBehind, missing, proper]
      rw [left]
      rcases Disk.backup_cases vacant.located vacant.plain (by simp [vacant.entry]) with
        ⟨spare, copy, named⟩ | ⟨spare, located, directory⟩ | ⟨spare, apart, absent⟩
      · obtain ⟨node, d₁, finds⟩ := DataFile.exists_finds (.inl vacant) named
        have file : (d₁.setContent node (d.content copy)).Names path loc node := finds.file.congr rfl
        have backup : (d₁.setContent node (d.content copy)).Names (Path.backup path) spare copy :=
          finds.backup.congr rfl
        rw [named.bytesAt?]
        refine .inr ⟨_, _, loc, node, finds.run_openAs proper, rfl, file.erase backup.entry finds.apart, ?_, rfl⟩
        exact Disk.content_setContent finds.file.node_lt _
      · exact .inl ⟨_, _, run_openAs_directory vacant proper located directory⟩
      · have alone := absent.addFile vacant.entry apart
        rw [absent.bytesAt?]
        refine .inr ⟨_, _, loc, _, DataFile.run_openAs_plain plain rfl alone.isThere, rfl, vacant.names_addFile, ?_, rfl⟩
        exact Disk.content_addFile_new

/-- a file that is opened to be written goes on behind what it has -/
theorem run_create {f : DataFile} {d₁ : Disk} {node : Nat} {old : Bytes}
    (opened : (DataFile.openAs path .readWrite).run.run d = (.ok f, d₁)) (writes : f.Writes node)
    (content : d₁.content node = old) (behind : f.position = old.length) (bytes : Bytes) :
    ∃ g, (DataFile.create path .readWrite bytes).run.run d = (.ok g, d₁.setContent node (old ++ bytes)) := by
  have grown : Disk.overwrite (d₁.content node) f.position bytes = old ++ bytes := by
    rw [content, behind]
    cases bytes <;> simp [Disk.overwrite]
  have written := DataFile.run_write (d := d₁) writes bytes
  rw [grown] at written
  refine ⟨{ f with size := f.size + bytes.length, position := f.position + bytes.length }, ?_⟩
  rw [DataFile.create, run_then opened, run_then (run_lift written)]
  rfl

/-- a file is made with the default options behind what a backup left there, or the load fails -/
theorem run_writeFile_cases (missing : d.isThere path = false) :
    (∃ e d', (writeFile path).run.run d = (.error e, d')) ∨
      ∃ d' loc node, (writeFile path).run.run d = (.ok {}, d') ∧ d'.Names path loc node
        ∧ d'.content node = leftBehind d path ++ encode {} := by
  rcases run_openAs_cases missing with
    ⟨fault, d₁, failed⟩ | ⟨f, d₁, loc, node, opened, writes, named, content, behind⟩
  · have refused : (DataFile.create path .readWrite (encode {})).run.run d = (.error fault, d₁) :=
      run_then_error failed _
    refine .inl ⟨.cannotWrite .options path fault, d₁, ?_⟩
    rw [writeFile, Document.guarded]
    refine run_then_error ?_ _
    rw [Document.run_adapt, refused]
    rfl
  · obtain ⟨g, created⟩ := run_create opened writes content behind (encode {})
    refine .inr ⟨d₁.setContent node (leftBehind d path ++ encode {}), loc, node, ?_, named.congr rfl,
      Disk.content_setContent named.node_lt _⟩
    have made : (Document.guarded (.cannotWrite .options path)
        (DataFile.create path .readWrite (encode {}))).run.run d = _ := Document.run_guarded created _
    rw [writeFile, run_then made]
    rfl

/-! ## The second load -/

/-- what a load says of the bytes in a file -/
def verdict (path : String) (var : Option String) (bytes : Bytes) : Except Error Options :=
  ((decode bytes).mapError fun fault => .cannotDecode .options path fault.message).map (placed path var)

theorem run_load_named {loc : Location} {node : Nat} (named : d.Names path loc node) (var : Option String) :
    (load path var).run.run d = (verdict path var (d.content node), d) := by
  rw [run_load, if_pos named.isThere, run_readFile named]
  rfl

/-- a load of what is there changes nothing, so the next one does the same -/
theorem run_load_again (there : d.isThere path = true) (loaded : (load path var).run.run d = (.ok o, d')) :
    d' = d ∧ (load path var).run.run d' = (.ok o, d') := by
  have same : ((load path var).run.run d).2 = d := by
    rw [run_load, if_pos there]
    exact (still_readFile path).disk_run d
  rw [loaded] at same
  obtain rfl : d' = d := same
  exact ⟨rfl, loaded⟩

/-- a load that made the file is followed by one that reads what is in it -/
theorem run_load_made (missing : d.isThere path = false) (loaded : (load path var).run.run d = (.ok o, d')) :
    o = placed path var {} ∧ (load path var).run.run d' = (verdict path var (leftBehind d path ++ encode {}), d') := by
  have made : ((writeFile path).run.run d).1.map (placed path var) = .ok o ∧ ((writeFile path).run.run d).2 = d' := by
    rw [run_load, missing] at loaded
    exact ⟨congrArg Prod.fst loaded, congrArg Prod.snd loaded⟩
  rcases run_writeFile_cases missing with ⟨e, d₁, failed⟩ | ⟨d₁, loc, node, wrote, named, content⟩
  · rw [failed] at made
    cases made.1
  · rw [wrote] at made
    obtain ⟨answer, rfl⟩ := made
    cases answer
    exact ⟨rfl, content ▸ run_load_named named var⟩

/-- **A second load says what the first one said** exactly if that found nothing but blanks in a backup beside a file that
was not there. Otherwise the file that the first load made cannot be read. The second load changes nothing -/
theorem load_twice (loaded : (load path var).run.run d = (.ok o, d')) :
    ∃ again, (load path var).run.run d' = (again, d')
      ∧ (again = .ok o ↔ (leftBehind d path).all Json.isBlank = true)
      ∧ (again = .ok o ∨ ∃ text, again = .error (.cannotDecode .options path text)) := by
  by_cases there : d.isThere path = true
  · obtain ⟨-, same⟩ := run_load_again there loaded
    have none : leftBehind d path = [] := by
      simp [leftBehind, there]
    rw [none]
    exact ⟨_, same, by simp, .inl rfl⟩
  · have missing : d.isThere path = false := by simpa using there
    obtain ⟨rfl, again⟩ := run_load_made missing loaded
    refine ⟨_, again, ?_⟩
    cases blank : (leftBehind d path).all Json.isBlank with
    | true =>
      have read : verdict path var (leftBehind d path ++ encode {}) = .ok (placed path var {}) := by
        rw [verdict, decode_encode blank]
        rfl
      exact ⟨by simpa using read, .inl read⟩
    | false =>
      obtain ⟨fault, refused⟩ := decode_behind blank
      have failed : verdict path var (leftBehind d path ++ encode {})
          = .error (.cannotDecode .options path fault.message) := by
        rw [verdict, refused]
        rfl
      exact ⟨by simp [failed], .inr ⟨_, failed⟩⟩

/-- an empty object that is left in a backup -/
def stray : Disk := ({} : Disk).withFile ["o.json.safe"] [0x7b, 0x7d]

theorem run_load_stray : ∃ d', (load "o.json" none).run.run stray = (.ok {}, d') := ⟨_, rfl⟩

theorem leftBehind_stray : leftBehind stray "o.json" = [0x7b, 0x7d] := by decide

/-- the options are loaded once and not again -/
theorem load_twice_stray :
    ∃ d', (load "o.json" none).run.run stray = (.ok {}, d')
      ∧ ∃ text, (load "o.json" none).run.run d' = (.error (.cannotDecode .options "o.json" text), d') := by
  obtain ⟨d', loaded⟩ := run_load_stray
  obtain ⟨again, second, same, other⟩ := load_twice loaded
  have some : ¬ (leftBehind stray "o.json").all Json.isBlank = true := by
    rw [leftBehind_stray]
    decide
  rcases other with ok | ⟨text, failed⟩
  · exact absurd (same.1 ok) some
  · exact ⟨d', loaded, text, failed ▸ second⟩

/-- **Loading is not idempotent**: that takes a file whose backup was left behind. -/
theorem not_idempotent :
    ¬ ∀ (path : String) (var : Option String) (o : Options) (d d' : Disk),
      (load path var).run.run d = (.ok o, d') → (load path var).run.run d' = (.ok o, d') := by
  intro idempotent
  obtain ⟨d', loaded⟩ := run_load_stray
  have missing : stray.isThere "o.json" = false := by decide
  obtain ⟨-, again⟩ := run_load_made missing loaded
  have some : (leftBehind stray "o.json").all Json.isBlank = false := by
    rw [leftBehind_stray]
    decide
  obtain ⟨fault, refused⟩ := decode_behind some
  have second := idempotent _ _ _ _ _ loaded
  rw [again, verdict, refused] at second
  cases second

end Options
end TableStore
