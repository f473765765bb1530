import Mathlib.Algebra.Order.Ring.Nat
import Mathlib.Data.List.Basic
import Mathlib.Logic.Function.Basic

/-!
# Paths and files

Paths are component lists, as `std::path::Path` normalises them; configured
paths come from YAML or TOML strings, so a file name is a `String` and
`to_string_lossy` is the identity. A disk maps paths to files and records which
directories exist. Errors are `anyhow` chains: the outermost context first.
-/

namespace NodeOs.Noded.FileSystem

abbrev Bytes := List UInt8

abbrev Error := List String

/-- The text the operating system gives for a failed call. -/
def osError : String := "os error"

/-- The UTF-8 bytes of a text, Rust's `as_bytes`. -/
def asBytes (text : String) : Bytes := text.toList.flatMap String.utf8EncodeChar

/-- Decided along the text, not over all characters. -/
instance (priority := 2000) decidableForallChar (holds : Char → Prop) [DecidablePred holds]
    (text : List Char) : Decidable (∀ char ∈ text, holds char) :=
  List.decidableBAll holds text

/-- Every line with its line feed. -/
def unlines : List String → String
  | [] => ""
  | line :: more => line ++ "\n" ++ unlines more

theorem as_bytes_append (first second : String) :
    asBytes (first ++ second) = asBytes first ++ asBytes second := by
  simp [asBytes]

theorem as_bytes_unlines (line : String) (more : List String) :
    asBytes (unlines (line :: more)) = asBytes line ++ 10 :: asBytes (unlines more) := by
  simp [asBytes, unlines]
  rfl

theorem as_bytes_unlines_append (front back : List String) :
    asBytes (unlines (front ++ back)) = asBytes (unlines front) ++ asBytes (unlines back) := by
  induction front with
  | nil => simp [unlines, asBytes]
  | cons line front ih => rw [List.cons_append, as_bytes_unlines, ih, as_bytes_unlines]; simp

def context (message : String) (error : Error) : Error := message :: error

inductive Component where
  | normal (name : String)
  | curDir
  | parentDir
  deriving DecidableEq, Repr

/-- The last component stands first: `parent` is the tail and `file_name` the
head. -/
structure Path where
  absolute : Bool
  innermost : List Component
  deriving DecidableEq, Repr

namespace Path

def parent (path : Path) : Option Path :=
  match path.innermost with
  | [] => none
  | _ :: outer => some { path with innermost := outer }

def fileName (path : Path) : Option String :=
  match path.innermost with
  | .normal name :: _ => some name
  | _ => none

def join (dir : Path) (name : String) : Path :=
  { dir with innermost := .normal name :: dir.innermost }

def ofNames (names : List String) : Path :=
  { absolute := true, innermost := (names.map Component.normal).reverse }

def Component.text : Component → String
  | .normal name => name
  | .curDir => "."
  | .parentDir => ".."

def display (path : Path) : String :=
  (if path.absolute then "/" else "") ++
    "/".intercalate (path.innermost.reverse.map Component.text)

/-- A directory with all directories around it, the outermost first: the order
in which `create_dir_all` makes them. -/
def enclosing (dir : Path) : List Path :=
  (dir.innermost.tails.map fun innermost => { dir with innermost := innermost }).reverse

/-- The temporary file `write_atomic` uses for a path. Calls on one path share
it, and nothing keeps it apart from the other configured paths. -/
def tempPath (path : Path) : Option Path := do
  let dir ← path.parent
  let name ← path.fileName
  some (dir.join s!".{name}.tmp")

theorem temp_path_of_name {path dir : Path} {name : String}
    (parented : path.parent = some dir) (named : path.fileName = some name) :
    path.tempPath = some (dir.join s!".{name}.tmp") := by
  simp only [tempPath, parented, named, Option.bind_eq_bind, Option.bind_some]

@[simp] theorem file_name_join (dir : Path) (name : String) :
    (dir.join name).fileName = some name := rfl

theorem temp_path_ne (path temp : Path) (staged : path.tempPath = some temp) : temp ≠ path := by
  intro same
  cases parented : path.parent with
  | none => simp [tempPath, parented] at staged
  | some dir =>
      cases named : path.fileName with
      | none => simp [tempPath, parented, named] at staged
      | some name =>
          rw [temp_path_of_name parented named, same] at staged
          have names := congrArg (fun value => value.bind fileName) staged
          simp only [Option.bind_some, file_name_join] at names
          have lengths := congrArg String.length
            (Option.some.inj (names.trans named))
          simp only [String.length_append, toString] at lengths
          have dot : ".".length = 1 := rfl
          omega

end Path

structure File where
  content : Bytes
  mode : Nat
  deriving DecidableEq, Repr

structure Disk where
  files : Path → Option File
  dirs : Path → Bool

namespace Disk

def content (disk : Disk) (path : Path) : Option Bytes := (disk.files path).map File.content

def put (disk : Disk) (path : Path) (file : Option File) : Disk :=
  { disk with files := Function.update disk.files path file }

def makeDirs (disk : Disk) (made : List Path) : Disk :=
  { disk with dirs := fun path => disk.dirs path || made.contains path }

def empty : Disk where
  files := fun _ => none
  dirs := fun _ => false

@[simp] theorem put_files (disk : Disk) (path : Path) (file : Option File) :
    (disk.put path file).files = Function.update disk.files path file := rfl

@[simp] theorem make_dirs_files (disk : Disk) (made : List Path) :
    (disk.makeDirs made).files = disk.files := rfl

theorem content_congr {left right : Disk} {path : Path}
    (same : left.files path = right.files path) : left.content path = right.content path := by
  simp only [content, same]

end Disk

end NodeOs.Noded.FileSystem
