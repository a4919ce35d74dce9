import Mathlib.Logic.Function.Basic
import Picasu.Framework.Path

/-! # A Tree of Directories and Files

A file system without links: what stands at each place, where a place is the list of names that
leads to it from the root. Everything but the root stands in a directory.

`canonicalize` walks a path component by component, as the kernel does: every component is looked
up in the directory the walk is at, so a `..` after a missing name, or after a file, fails.
Relative paths start at the working directory.
-/

open PathBuf

inductive NodeKind where
  | dir
  | file
  deriving DecidableEq, Repr

/-- What stands at each place. -/
structure Disk where
  kind : List String → Option NodeKind
  root_dir : kind [] = some .dir
  parent_dir : ∀ place name, (kind (place ++ [name])).isSome → kind place = some .dir

namespace Disk

def absolute (place : List String) : PathBuf := .rootDir :: place.map .normal

variable (d : Disk)

/-! ## Building -/

/-- Nothing but the root. -/
def empty : Disk where
  kind place := if place = [] then some .dir else none
  root_dir := rfl
  parent_dir := by simp

/-- A new node in a directory; nothing happens where there is none, or where the name is taken. -/
def add (place : List String) (name : String) (kind : NodeKind) : Disk :=
  if h : d.kind place = some .dir ∧ d.kind (place ++ [name]) = none then
    { kind := Function.update d.kind (place ++ [name]) (some kind)
      root_dir := by
        rw [Function.update_of_ne (by simp)]
        exact d.root_dir
      parent_dir := by
        intro at' name' hsome
        by_cases hnew : at' ++ [name'] = place ++ [name]
        · -- the new node stands in the directory it was put in
          obtain ⟨rfl, -⟩ := List.append_inj' hnew rfl
          rw [Function.update_of_ne (by simp)]
          exact h.1
        · rw [Function.update_of_ne hnew] at hsome
          have hdir := d.parent_dir at' name' hsome
          have hold : at' ≠ place ++ [name] := by
            rintro rfl
            rw [h.2] at hdir
            cases hdir
          rw [Function.update_of_ne hold]
          exact hdir }
  else d

/-! ## Walking -/

/-- One component, looked up from a place. -/
def walk (place : List String) : Component → Option (List String)
  | .rootDir => some []
  | .curDir => if d.kind place = some .dir then some place else none
  | .parentDir => if d.kind place = some .dir then some place.dropLast else none
  | .normal name =>
    if d.kind place = some .dir ∧ (d.kind (place ++ [name])).isSome then some (place ++ [name])
    else none

/-- The absolute path of what a path leads to, if it leads to anything. -/
def canonicalize (cwd : List String) (p : PathBuf) : Option PathBuf :=
  if p = [] then none else (p.foldlM d.walk cwd).map absolute

end Disk
