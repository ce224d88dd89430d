import Piteka.Interleaving.Atomic
import Piteka.Interleaving.Fallible
import Piteka.Storage.Json
import Mathlib.Data.List.AList

/-!
# The local evidence store

A file system is a map from paths to bytes; an existence test, the writing of a
file, a rename and the reading of a file are single steps, and only a missing
source or file fails. The store names each blob by its content address and writes
it under a temporary name first, which the address and the process id determine.
-/
namespace Piteka.Files

set_option autoImplicit false

open Piteka.Interleaving Piteka.Storage

/-- The components of a path. -/
abbrev FilePath := List String

inductive IoError where
  | notFound
  | other (message : String)

/-- The `Display` text of an error. -/
def IoError.display : IoError → String
  | .notFound => "No such file or directory (os error 2)"
  | .other message => message

def IoError.toStorage (e : IoError) : StorageError := .backend e.display

structure FileSystem where
  files : AList (fun _ : FilePath => Array UInt8)

inductive FileCall where
  | exists (path : FilePath)
  | write (path : FilePath) (bytes : Array UInt8)
  | rename (source target : FilePath)
  | read (path : FilePath)

@[reducible] def FileCall.Answer : FileCall → Type
  | .exists _ => Bool
  | .write _ _ => Except IoError Unit
  | .rename _ _ => Except IoError Unit
  | .read _ => Except IoError (Array UInt8)

namespace FileSystem

def empty : FileSystem := ⟨∅⟩

def lookup (fs : FileSystem) (path : FilePath) : Option (Array UInt8) := fs.files.lookup path

def step (fs : FileSystem) : (c : FileCall) → c.Answer × FileSystem
  | .exists path => ((fs.lookup path).isSome, fs)
  | .write path bytes => (.ok (), ⟨fs.files.insert path bytes⟩)
  | .rename source target =>
    match fs.lookup source with
    | none => (.error .notFound, fs)
    | some bytes => (.ok (), ⟨(fs.files.erase source).insert target bytes⟩)
  | .read path =>
    match fs.lookup path with
    | none => (.error .notFound, fs)
    | some bytes => (.ok bytes, fs)

end FileSystem

abbrev FileUse (α : Type) := ExceptT StorageError (Program FileCall FileCall.Answer) α

def fileExists (path : FilePath) : FileUse Bool :=
  ExceptT.mk (.call (.exists path) fun found => .ret (.ok found))

/-- A call with `?`. -/
def writeFile (path : FilePath) (bytes : Array UInt8) : FileUse Unit :=
  ExceptT.mk (.call (.write path bytes) fun r => .ret (r.mapError IoError.toStorage))

def renameFile (source target : FilePath) : FileUse Unit :=
  ExceptT.mk (.call (.rename source target) fun r => .ret (r.mapError IoError.toStorage))

def parent (path : FilePath) : Option FilePath := if path = [] then none else some path.dropLast

def fileName (path : FilePath) : Option String := path.getLast?

/-- The temporary name in the same directory. -/
def tmpName (processId : Nat) (name : String) : String :=
  "." ++ name ++ ".tmp-" ++ toString processId

def atomicWrite (processId : Nat) (path : FilePath) (bytes : Array UInt8) : FileUse Unit :=
  match parent path with
  | none => throw (.backend "evidence path has no parent")
  | some directory =>
    match fileName path with
    | none => throw (.backend "evidence path has no name")
    | some name => do
      let tmp := directory ++ [tmpName processId name]
      writeFile tmp bytes
      renameFile tmp path

structure LocalEvidenceStore where
  root : FilePath

namespace LocalEvidenceStore

def blobPath (store : LocalEvidenceStore) (digest : ContentDigest) : FilePath :=
  store.root ++ ["blobs", digest.toHex]

def put (rt : Runtime) (processId : Nat) (store : LocalEvidenceStore) (bytes : Array UInt8) :
    FileUse ContentDigest := do
  let digest := ContentDigest.of rt bytes
  let path := store.blobPath digest
  -- immutable and content-addressed: identical bytes already present
  if ← fileExists path then return digest
  else
    atomicWrite processId path bytes
    return digest

/-- What `get` makes of the bytes that it has read. -/
def verified (rt : Runtime) (digest : ContentDigest) :
    Except IoError (Array UInt8) → Except StorageError (Option (Array UInt8))
  | .ok bytes =>
    let found := ContentDigest.of rt bytes
    if found ≠ digest then .error (.evidenceDigestMismatch digest found) else .ok (some bytes)
  | .error .notFound => .ok none
  | .error e => .error e.toStorage

def get (rt : Runtime) (store : LocalEvidenceStore) (digest : ContentDigest) :
    FileUse (Option (Array UInt8)) :=
  ExceptT.mk (.call (.read (store.blobPath digest)) fun r => .ret (verified rt digest r))

/-- The temporary path of a blob. -/
def tmpPath (processId : Nat) (store : LocalEvidenceStore) (digest : ContentDigest) : FilePath :=
  store.root ++ ["blobs", tmpName processId digest.toHex]

theorem blobPath_inj {store : LocalEvidenceStore} {d d' : ContentDigest}
    (h : store.blobPath d = store.blobPath d') : d = d' := by
  have hname := List.append_cancel_left h
  exact ContentDigest.toHex_injective (by simpa using hname)

theorem tmpPath_inj {store : LocalEvidenceStore} {processId : Nat} {d d' : ContentDigest}
    (h : store.tmpPath processId d = store.tmpPath processId d') : d = d' := by
  have hname : tmpName processId d.toHex = tmpName processId d'.toHex := by
    simpa [tmpPath] using h
  refine ContentDigest.toHex_injective (String.toList_inj.mp ?_)
  have hlist := congrArg String.toList hname
  simpa [tmpName] using hlist

/-- A temporary name begins with a dot, which no digit is. -/
theorem blobPath_ne_tmpPath (store : LocalEvidenceStore) (processId : Nat) (d d' : ContentDigest) :
    store.blobPath d ≠ store.tmpPath processId d' := by
  intro h
  have hname : d.toHex = tmpName processId d'.toHex := by
    simpa [blobPath, tmpPath] using h
  have hdot : '.' ∈ d.toHex.toList := by
    rw [hname]
    simp [tmpName]
  rw [d.toHex_toList] at hdot
  have hdigits := (Text.Hex.decode_shape (Text.Hex.decode_encode d.bytes.toList)).2 '.' hdot
  exact absurd hdigits (by decide)

end LocalEvidenceStore

end Piteka.Files
