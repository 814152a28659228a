/-
Documents on disk: data files whose faults are errors of the store.
-/
import TableStore.Disk.DataFile
import TableStore.Error
import TableStore.Json.Shapes
import TableStore.Json.Writer

namespace TableStore

/-- programs of the store -/
abbrev StoreM := ExceptT Error Program

namespace Document

/-- a fault as an error of the store -/
def guarded {α : Type} (error : Fault → Error) (p : ExceptT Fault Program α) : StoreM α := ExceptT.adapt error p

def openAs (kind : Document) (path : String) (mode : Mode) : StoreM DataFile :=
  guarded (.cannotOpen kind path) (DataFile.openAs path mode)

/-- the bytes of a document; every reading starts at its first byte, so the file's position is of no account -/
def bytes (kind : Document) (file : DataFile) : StoreM Bytes :=
  guarded (.cannotRead kind file.path) (file.outcome DataFile.readAll)

/-- the content that bytes of a document decode to -/
def decoded {α : Type} (kind : Document) (file : DataFile) (decode : Bytes → Except Json.Fault α) (bytes : Bytes) :
    StoreM α :=
  match decode bytes with
  | .ok content => return content
  | .error fault => throw (.cannotDecode kind file.path fault.message)

/-- put other bytes in the place of a document's -/
def save (kind : Document) (file : DataFile) (bytes : Bytes) : StoreM Unit :=
  guarded (.cannotWrite kind file.path) (file.outcome (DataFile.saveWrite bytes))

end Document
end TableStore
