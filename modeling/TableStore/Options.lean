/-
Options of a store and its server, and where they put the two data files.
-/
import TableStore.Disk.Path

namespace TableStore

structure Options where
  basePath : String := "."
  catalogFile : String := "flatdb.catalog"
  tablespaceFile : String := "flatdb.data"
  serverPort : UInt16 := 2134
  workerThreads : UInt64 := 8
  debugLogging : Bool := true
  testMode : Bool := false
  deriving DecidableEq

namespace Options

/-- data files of a store under test have names of their own -/
def dataPath (o : Options) (name : String) : String :=
  Path.join o.basePath (if o.testMode then "test." ++ name else name)

def catalogPath (o : Options) : String := o.dataPath o.catalogFile

def tablespacePath (o : Options) : String := o.dataPath o.tablespaceFile

/-- a store under test logs no debug lines -/
def logsDebug (o : Options) : Bool := o.debugLogging && !o.testMode

end Options
end TableStore
