import GridSnapshot.FileTree
import GridSnapshot.Proofs.Outcome
import GridSnapshot.Proofs.Paths
import GridSnapshot.Proofs.Tables

namespace GridSnapshot.FileTree

open Outcome
open GridSnapshot.Path (IsName)

variable {t t' t'' : FileTree} {p : Path} {place target : Place} {name segment : String}
  {segments : List String} {node : FileNode} {content : Bytes}

/-- What is there stays there, and directories stay directories. -/
structure Grows (t t' : FileTree) : Prop where
  directory : ∀ place, t.node? place = some .directory → t'.node? place = some .directory
  present : ∀ place, (t.node? place).isSome → (t'.node? place).isSome

theorem Grows.trans (h : t.Grows t') (h' : t'.Grows t'') : t.Grows t'' where
  directory place hplace := h'.directory place (h.directory place hplace)
  present place hplace := h'.present place (h.present place hplace)

theorem node?_insert (hk : target ≠ []) :
    node? (t.insert target node) place = if place = target then some node else t.node? place := by
  unfold node?
  by_cases h : place = []
  · subst h
    rw [if_pos rfl, if_neg (Ne.symm hk), if_pos rfl]
  · rw [if_neg h, if_neg h, Table.get?_insert]

theorem node?_concat (t : FileTree) (place : Place) (name : String) :
    t.node? (place ++ [name]) = t.get? (place ++ [name]) := if_neg (by simp)

theorem any_isDirectory_iff :
    (t.node? place).any FileNode.isDirectory = true ↔ t.node? place = some .directory := by
  cases t.node? place with
  | none => simp
  | some node => cases node <;> simp [FileNode.isDirectory]

theorem grows_insert (hk : target ≠ [])
    (h : node = .directory ∨ t.node? target ≠ some .directory) :
    t.Grows (t.insert target node) where
  directory q hq := by
    rw [node?_insert hk]
    split
    · rename_i heq
      rcases h with h | h
      · rw [h]
      · exact absurd (heq ▸ hq) h
    · exact hq
  present q hq := by
    rw [node?_insert hk]
    split
    · rfl
    · exact hq

theorem step_eq_ok (h : t.step place segment = .ok target) : t.node? place = some .directory := by
  unfold step at h
  split at h
  · cases h
  · cases h
  · rename_i hnode
    exact hnode

theorem step_empty (h : t.step place "" = .ok target) : target = place := by
  have hnode := step_eq_ok h
  simp only [step, hnode] at h
  rw [if_pos (.inl trivial)] at h
  exact (Except.ok.inj h).symm

theorem Grows.step (h : t.Grows t') (hs : t.step place segment = .ok target) :
    t'.step place segment = .ok target := by
  have hnode := step_eq_ok hs
  simp only [FileTree.step, hnode] at hs
  simp only [FileTree.step, h.directory place hnode]
  split at hs
  · rename_i hskip
    rw [if_pos hskip]
    exact hs
  · rename_i hskip
    rw [if_neg hskip]
    split at hs
    · rename_i hback
      rw [if_pos hback]
      exact hs
    · rename_i hback
      rw [if_neg hback]
      split at hs
      · cases hs
      · rename_i hsize
        rw [if_neg hsize]
        split at hs
        · rename_i node hchild
          have hpresent := h.present (place ++ [segment]) (by
            rw [← child?, hchild]
            rfl)
          obtain ⟨node', hchild'⟩ := Option.isSome_iff_exists.mp hpresent
          rw [← child?] at hchild'
          simp only [hchild']
          exact hs
        · cases hs

theorem Grows.foldlM_step (h : t.Grows t') (hw : segments.foldlM t.step place = .ok target) :
    segments.foldlM t'.step place = .ok target := by
  induction segments generalizing place with
  | nil => exact hw
  | cons s ss ih =>
    rw [List.foldlM_cons, bind_eq_ok_iff] at hw ⊢
    obtain ⟨next, hs, hrest⟩ := hw
    exact ⟨next, h.step hs, ih hrest⟩

section Names

variable (hname : IsName name)
include hname

theorem step_name (hnode : t.node? place = some .directory)
    (hsize : name.utf8ByteSize ≤ Path.longestName) :
    t.step place name = if (t.child? place name).isSome then .ok (place ++ [name])
      else .error .missing := by
  simp only [step, hnode]
  rw [if_neg (not_or.mpr ⟨hname.ne_empty, hname.ne_dot⟩), if_neg hname.ne_dots,
    if_neg (Nat.not_lt.mpr hsize)]
  cases t.child? place name <;> rfl

theorem step_name_eq_ok (h : t.step place name = .ok target) :
    target = place ++ [name] ∧ name.utf8ByteSize ≤ Path.longestName ∧
      (t.child? place name).isSome := by
  have hnode := step_eq_ok h
  by_cases hsize : name.utf8ByteSize ≤ Path.longestName
  · rw [step_name hname hnode hsize] at h
    split at h
    · rename_i hsome
      exact ⟨(Except.ok.inj h).symm, hsize, hsome⟩
    · cases h
  · simp only [step, hnode] at h
    rw [if_neg (not_or.mpr ⟨hname.ne_empty, hname.ne_dot⟩), if_neg hname.ne_dots,
      if_pos (Nat.lt_of_not_le hsize)] at h
    cases h

end Names

/-- Where following a path begins. -/
def origin (p : Path) : Place := if p.isAbsolute then ["/"] else []

/-- The path leads to a directory of the tree. -/
structure LeadsTo (t : FileTree) (p : Path) (place : Place) : Prop where
  resolve_eq : t.resolve p = .ok place
  node_eq : t.node? place = some .directory

theorem walk_eq_ok_iff : t.walk p segments = .ok place ↔
    p.fault? = none ∧ segments.foldlM t.step (origin p) = .ok place := by
  unfold walk
  cases p.fault? with
  | some fault => simp
  | none =>
    simp only [true_and]
    exact Iff.rfl

theorem text_ne_of_fault? (h : p.fault? = none) : p.text ≠ "" := by
  intro htext
  rw [Path.fault?, if_pos htext] at h
  cases h

theorem foldlM_segments_iff (hnode : t.node? place = some .directory) {start : Place} :
    p.segments.foldlM t.step start = .ok place ↔ p.stem.foldlM t.step start = .ok place := by
  rcases p.segments_eq_stem with h | h
  · rw [h]
  · rw [h, List.foldlM_append, bind_eq_ok_iff]
    constructor
    · intro h
      obtain ⟨next, hstem, hlast⟩ := h
      rw [List.foldlM_cons, bind_eq_ok_iff] at hlast
      obtain ⟨last, hstep, hnil⟩ := hlast
      cases hnil
      rw [step_empty hstep]
      exact hstem
    · intro hstem
      refine ⟨place, hstem, ?_⟩
      have hstep : t.step place "" = .ok place := by
        simp only [step, hnode]
        exact if_pos (.inl trivial)
      rw [List.foldlM_cons, hstep]
      rfl

theorem LeadsTo.fault?_eq (h : t.LeadsTo p place) : p.fault? = none :=
  (walk_eq_ok_iff.mp h.resolve_eq).1

theorem LeadsTo.text_ne (h : t.LeadsTo p place) : p.text ≠ "" := text_ne_of_fault? h.fault?_eq

theorem LeadsTo.foldlM_stem (h : t.LeadsTo p place) :
    p.stem.foldlM t.step (origin p) = .ok place :=
  (foldlM_segments_iff h.node_eq).mp (walk_eq_ok_iff.mp h.resolve_eq).2

theorem Grows.resolve (h : t.Grows t') (hp : t.resolve p = .ok place) :
    t'.resolve p = .ok place := by
  obtain ⟨hfault, hwalk⟩ := walk_eq_ok_iff.mp hp
  exact walk_eq_ok_iff.mpr ⟨hfault, h.foldlM_step hwalk⟩

theorem LeadsTo.grows (h : t.LeadsTo p place) (hgrows : t.Grows t') : t'.LeadsTo p place where
  resolve_eq := hgrows.resolve h.resolve_eq
  node_eq := hgrows.directory place h.node_eq

theorem LeadsTo.unique (h : t.LeadsTo p place) (h' : t.LeadsTo p target) : place = target :=
  Except.ok.inj (h.resolve_eq.symm.trans h'.resolve_eq)

theorem origin_join (hname : IsName name) (hp : p.text ≠ "") :
    origin (p.join name) = origin p := by
  rw [origin, Path.isAbsolute_join hname hp, origin]

theorem LeadsTo.resolve_join (h : t.LeadsTo p place) (hname : IsName name)
    (hfault : (p.join name).fault? = none) : t.resolve (p.join name) = t.step place name := by
  have hp := h.text_ne
  have hstem := h.foldlM_stem
  rw [← origin_join hname hp] at hstem
  unfold resolve walk
  simp only [hfault]
  change (p.join name).segments.foldlM t.step (origin (p.join name)) = _
  rw [Path.segments_join hname hp, List.foldlM_append, hstem]
  exact bind_pure (t.step place name)

/-- Along a path that is there, nothing is made. -/
theorem makePlaces_append {rest : List String}
    (h : segments.foldlM t.step place = .ok target) :
    t.makePlaces place (segments ++ rest) = t.makePlaces target rest := by
  induction segments generalizing place with
  | nil =>
    cases h
    rfl
  | cons s ss ih =>
    rw [List.foldlM_cons, bind_eq_ok_iff] at h
    obtain ⟨next, hstep, hrest⟩ := h
    rw [List.cons_append, makePlaces]
    simp only [hstep]
    exact ih hrest

theorem makePlaces_eq (h : segments.foldlM t.step place = .ok target) :
    t.makePlaces place segments = (t, (t.node? target).any FileNode.isDirectory) := by
  have happend : t.makePlaces place (segments ++ []) = t.makePlaces target [] := makePlaces_append h
  rwa [List.append_nil] at happend

theorem foldlM_prefix {init : List String} (h : segments.foldlM t.step place = .ok target)
    (hinit : init <+: segments) : ∃ next, init.foldlM t.step place = .ok next := by
  obtain ⟨rest, rfl⟩ := hinit
  rw [List.foldlM_append, bind_eq_ok_iff] at h
  obtain ⟨next, hnext, -⟩ := h
  exact ⟨next, hnext⟩

/-- The parent of a path that is there is there too. -/
theorem makePlaces_parent (h : p.segments.foldlM t.step [] = .ok place) :
    (t.makePlaces [] p.parent.segments).1 = t := by
  obtain ⟨init, hinit, hparent | hparent⟩ := p.exists_segments_parent
  · obtain ⟨next, hnext⟩ := foldlM_prefix h hinit
    rw [hparent, makePlaces_eq hnext]
  · have hwalk : ([""] : List String).foldlM t.step [] = .ok [] := rfl
    rw [hparent, makePlaces_eq hwalk]

theorem LeadsTo.isDirectory (h : t.LeadsTo p place) : t.isDirectory p = true := by
  rw [FileTree.isDirectory, lookup?, h.resolve_eq]
  simp only [h.node_eq]
  rfl

theorem LeadsTo.makeDirectory (h : t.LeadsTo p place) (hp : p.isAbsolute = false) :
    t.makeDirectory p = (t, true) := by
  obtain ⟨hfault, hwalk⟩ := walk_eq_ok_iff.mp h.resolve_eq
  have horigin : origin p = [] := by simp [origin, hp]
  rw [horigin] at hwalk
  unfold FileTree.makeDirectory
  rw [if_neg h.text_ne, if_neg (by simp [hfault, hp])]
  split
  · simp only [makePlaces_parent hwalk, h.isDirectory]
  · rw [makePlaces_eq hwalk, h.node_eq]
    rfl

/-- A name that is appended to a path makes neither of them too long. -/
structure Admits (p : Path) (name : String) : Prop where
  fault?_eq : (p.join name).fault? = none
  size_le : name.utf8ByteSize ≤ Path.longestName

theorem LeadsTo.isPresent_join (h : t.LeadsTo p place) (hname : IsName name)
    (hnone : t.get? (place ++ [name]) = none) : t.isPresent (p.join name) = false := by
  have hchild : t.child? place name = none := by rw [child?, node?_concat, hnone]
  unfold isPresent lookup?
  cases hresolve : t.resolve (p.join name) with
  | error fault => rfl
  | ok target =>
    have hfault := (walk_eq_ok_iff.mp hresolve).1
    rw [h.resolve_join hname hfault] at hresolve
    have hsome := (step_name_eq_ok hname hresolve).2.2
    rw [hchild] at hsome
    cases hsome

theorem LeadsTo.read_join (h : t.LeadsTo p place) (hname : IsName name)
    (hadmits : Admits p name) (hget : t.get? (place ++ [name]) = some (.file content)) :
    t.read (p.join name) = .ok content := by
  have hstep := step_name hname h.node_eq hadmits.size_le
  rw [child?, node?_concat, hget] at hstep
  rw [read, h.resolve_join hname hadmits.fault?_eq, hstep]
  simp only [Option.isSome_some, if_true, node?_concat, hget]

theorem isFile_of_read (h : t.read p = .ok content) : t.isFile p = true := by
  unfold read at h
  split at h
  · cases h
  · rename_i place hresolve
    split at h
    · rename_i hnode
      simp only [isFile, lookup?, hresolve, hnode]
      rfl
    · cases h
    · cases h

theorem LeadsTo.join (h : t.LeadsTo p place) (hname : IsName name) (hadmits : Admits p name)
    (hget : t.get? (place ++ [name]) = some .directory) :
    t.LeadsTo (p.join name) (place ++ [name]) where
  resolve_eq := by
    have hstep := step_name hname h.node_eq hadmits.size_le
    rw [child?, node?_concat, hget] at hstep
    rw [h.resolve_join hname hadmits.fault?_eq, hstep]
    rfl
  node_eq := by rw [node?_concat, hget]

theorem LeadsTo.list (h : t.LeadsTo p place) : t.list p = .ok (t.namesIn place) := by
  rw [FileTree.list, h.resolve_eq]
  simp only [h.node_eq]

end GridSnapshot.FileTree
