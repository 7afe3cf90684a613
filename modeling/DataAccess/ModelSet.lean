import DataAccess.Disk.Basic
import DataAccess.Error
import DataAccess.Model.Codec

set_option autoImplicit false

/-! # Model directories

A model directory holds one model in every `.json` file, at any depth, and the attribute registry
in `attributes.json`. `ModelSet.load` reads them all: registries first, of which the last one
counts, then models in the order of their paths. -/

namespace DataAccess

/-- What a model directory holds. -/
structure ModelSet where
  registry : Registry := {}
  models : List Model := []
  deriving Inhabited

namespace ModelSet

/-! ## Files -/

/-- The name of the file that holds the registry. -/
def registryFileName : String := "attributes.json"

/-- The name of a file. -/
def fileName (f : Tree.File) : String := f.path.getLast?.getD ""

/-- Whether a file takes part: its extension is `json`. -/
def isSource (f : Tree.File) : Bool := Path.extension? (fileName f) == some "json"

/-- Whether a file holds a registry. -/
def isRegistry (f : Tree.File) : Bool := fileName f == registryFileName

/-- Decodes a file of the directory `dir`. -/
def readFile {α : Type} (decode : String → Except Json.Mismatch α) (dir : String) (f : Tree.File) :
    Except CompileError α :=
  let path := Path.joinAll dir f.path
  match f.text with
  | none => .error (.io path "stream did not contain valid UTF-8")
  | some text => (decode text).mapError fun e => .parse path e.message

/-- Reads a registry and makes it ready for look-ups. -/
def readRegistry (dir : String) (f : Tree.File) : Except CompileError Registry :=
  Registry.reindex <$> readFile Registry.ofText dir f

/-- Reads a model. -/
def readModel (dir : String) (f : Tree.File) : Except CompileError Model :=
  readFile Model.ofText dir f

/-! ## Directories -/

/-- Whether the path of an entry of the directory `dir` is short enough to be used. -/
def isInReach (dir : String) (path : Place) : Bool :=
  (Path.joinAll dir path).utf8ByteSize ≤ Disk.maxPathSize

/-- Whether an entry is a directory that cannot be opened. A file out of reach is passed over. -/
def isClosed (dir : String) : Tree.Entry → Bool
  | .directory path => !isInReach dir path
  | .file _ => false

/-- The failure to open a directory. -/
def closedError (dir : String) (path : Place) : CompileError :=
  let full := Path.joinAll dir path
  .io full ("IO error for operation on " ++ full ++ ": " ++ Disk.Failure.nameTooLong.message)

/-- The file that an entry of the directory `dir` contributes. -/
def source? (dir : String) (e : Tree.Entry) : Option Tree.File :=
  e.file?.filter fun f => isInReach dir f.path && isSource f

/-- Reads the entries of the directory `dir` in their order. Registries are read on the way, models
after all entries have been seen. -/
def ofListing (dir : String) (listing : List Tree.Entry) : Except CompileError ModelSet := do
  let opened := listing.takeWhile fun e => !isClosed dir e
  let (registryFiles, modelFiles) := (opened.filterMap (source? dir)).partition isRegistry
  let registries ← registryFiles.mapM (readRegistry dir)
  match listing.find? (isClosed dir) with
  | some e => throw (closedError dir e.path)
  | none =>
    let models ← modelFiles.mapM (readModel dir)
    return { registry := registries.getLast?.getD {}, models }

/-- Reads the model directory at a path. -/
def load (disk : Disk) (dir : String) : Except CompileError ModelSet :=
  match disk.find? dir with
  | some (.dir entries) => ofListing dir (Tree.dir entries).listing
  | _ => .error (.io dir "model directory does not exist")

end ModelSet

end DataAccess
