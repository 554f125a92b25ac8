import Mathlib.Data.List.TakeDrop
import Mathlib.Logic.Function.Basic

set_option autoImplicit false

/-! # Files

A file system as what each path holds, with the calls a program uses to replace a file as a whole: it
writes the new content to another path and renames that.

`append` takes any bytes, so a write that is cut short is an append as well. A rename replaces its
target at once: a reader of the target finds the old content, or what the other path held when it was
renamed. -/

/-- What each path holds. -/
abbrev Files (Path Byte : Type) : Type := Path → Option (List Byte)

namespace Files

variable {Path Byte : Type} [DecidableEq Path] (fs : Files Path Byte) {p q : Path}

/-- `open` with `O_CREAT | O_TRUNC`. -/
def truncate (p : Path) : Files Path Byte := Function.update fs p (some [])

/-- `write` at the end of an open file. -/
def append (p : Path) (bytes : List Byte) : Files Path Byte :=
  Function.update fs p (some ((fs p).getD [] ++ bytes))

/-- `rename`, which replaces the target. -/
def rename (src dst : Path) : Files Path Byte :=
  Function.update (Function.update fs src none) dst (fs src)

@[simp] theorem truncate_self : (fs.truncate p) p = some [] := Function.update_self ..

theorem truncate_of_ne (h : q ≠ p) : (fs.truncate p) q = fs q := Function.update_of_ne h ..

@[simp] theorem append_self {bytes : List Byte} :
    (fs.append p bytes) p = some ((fs p).getD [] ++ bytes) := Function.update_self ..

theorem append_of_ne {bytes : List Byte} (h : q ≠ p) : (fs.append p bytes) q = fs q :=
  Function.update_of_ne h ..

@[simp] theorem rename_target : (fs.rename p q) q = fs p := Function.update_self ..

theorem rename_of_ne {p' : Path} (hp : p' ≠ p) (hq : p' ≠ q) : (fs.rename p q) p' = fs p' := by
  rw [rename, Function.update_of_ne hq, Function.update_of_ne hp]

/-- What has been written to a truncated file. -/
theorem append_truncate_self {bytes : List Byte} :
    ((fs.truncate p).append p bytes) p = some bytes := by
  rw [append_self, truncate_self, Option.getD_some, List.nil_append]

end Files
