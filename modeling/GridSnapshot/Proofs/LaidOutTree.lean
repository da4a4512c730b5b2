import GridSnapshot.RunRecipe
import GridSnapshot.Proofs.TreeGrowth

namespace GridSnapshot

open Outcome
open GridSnapshot.Path (IsName)

def Path.under (dir : Path) (names : List String) : Path := names.foldl Path.join dir

/-- A directory or a file, with the names that lead to it. -/
abbrev TreeEntry := List String × FileNode

namespace TreeEntry

/-- The path of the entry is not too long. -/
def IsAdmitted (e : TreeEntry) (dir : Path) : Prop :=
  ∃ names name, e.1 = names ++ [name] ∧ FileTree.Admits (dir.under names) name

def action (dir : Path) (e : TreeEntry) : RunRecipe.Action :=
  match e.2 with
  | .directory => .makeDirectory (dir.under e.1)
  | .file content => .writeFile (dir.under e.1) content

def at' (place : Place) (e : TreeEntry) : Place × FileNode := (place ++ e.1, e.2)

def topName? (e : TreeEntry) : Option String :=
  match e.1 with
  | [name] => some name
  | _ => none

end TreeEntry

namespace RunRecipe

theorem runActions_cons_eq {a : Action} {actions : List Action} {t t' : FileTree}
    (h : runActions (a :: actions) t = (t', true)) :
    ∃ next, a.run t = (next, true) ∧ runActions actions next = (t', true) := by
  rw [runActions] at h
  split at h
  · rename_i next hnext
    exact ⟨next, hnext, h⟩
  · cases h

end RunRecipe

namespace FileTree

variable {t t' : FileTree} {dir : Path} {place target : Place} {names : List String}
  {e : TreeEntry} {es : List TreeEntry}

theorem eq_ok_of_after {change : Except FileFault FileTree} (h : t.after change = (t', true)) :
    change = .ok t' := by
  cases change with
  | error fault => cases h
  | ok changed =>
    cases h
    rfl

theorem nameIn?_eq_some_iff {name : String} :
    nameIn? place target = some name ↔ target = place ++ [name] := by
  unfold nameIn?
  cases h : target.getLast? with
  | none =>
    rw [List.getLast?_eq_none_iff] at h
    subst h
    simp
  | some last =>
    obtain ⟨init, rfl⟩ := List.getLast?_eq_some_iff.mp h
    simp only [List.dropLast_concat]
    constructor
    · intro heq
      split at heq
      · rename_i hinit
        cases heq
        rw [hinit]
      · cases heq
    · intro heq
      obtain ⟨rfl, hlast⟩ := List.append_inj' heq rfl
      rw [if_pos rfl, (List.cons.inj hlast).1]

theorem mem_namesIn_iff {name : String} :
    name ∈ t.namesIn place ↔ place ++ [name] ∈ t.keys := by
  unfold namesIn
  rw [List.mem_filterMap]
  constructor
  · intro h
    obtain ⟨key, hkey, hname⟩ := h
    rw [← nameIn?_eq_some_iff.mp hname]
    exact hkey
  · intro hkey
    exact ⟨_, hkey, nameIn?_eq_some_iff.mpr rfl⟩

end FileTree

end GridSnapshot
