import GridSnapshot.Proofs.LaidOutTree

namespace GridSnapshot

namespace FileTree

open Outcome
open GridSnapshot.Path (IsName)

variable {t t' t'' : FileTree} {p q : Path} {place target : Place} {name segment : String}
  {segments : List String} {content : Bytes}

/-- Where names begin that are appended to a path. -/
def base (t : FileTree) (p : Path) : Except FileFault Place := p.stem.foldlM t.step (origin p)

theorem stem_join (hname : IsName name) (p : Path) :
    (p.join name).stem = (p.join name).segments := by
  obtain ⟨pre, hpre⟩ := Path.exists_text_join name p
  refine if_neg fun hlast => ?_
  rw [hpre, List.getLast?_append, Option.or_eq_some_iff] at hlast
  rcases hlast with hlast | ⟨hnone, -⟩
  · exact hname.slash_not_mem (List.mem_of_getLast? hlast)
  · exact hname.ne_empty (String.toList_eq_nil_iff.mp (List.getLast?_eq_none_iff.mp hnone))

theorem exists_base_of_walk (hname : IsName name)
    (h : (p.join name).segments.foldlM t.step (origin (p.join name)) = .ok target) :
    ∃ place, t.base p = .ok place ∧ target = place ++ [name] := by
  by_cases hp : p.text = ""
  · -- Names that are appended to the empty path begin at the root.
    have hbase : t.base p = .ok [] := by
      obtain ⟨text⟩ := p
      cases hp
      rfl
    have hjoin : p.join name = ⟨name⟩ := if_pos (.inr hp)
    have hsegments : (⟨name⟩ : Path).segments = [name] := by
      rw [Path.segments, Path.splitSlash_of_not_mem hname.slash_not_mem, List.map_singleton,
        String.ofList_toList]
    have horigin : origin ⟨name⟩ = [] := if_neg (by simpa [Path.isAbsolute] using hname.head?_ne)
    rw [hjoin, hsegments, horigin] at h
    have hstep : t.step [] name = .ok target := (bind_pure (t.step [] name)).symm.trans h
    exact ⟨[], hbase, (step_name_eq_ok hname hstep).1⟩
  · rw [Path.segments_join hname hp, origin_join hname hp, List.foldlM_append] at h
    obtain ⟨place, hbase, hlast⟩ := bind_eq_ok_iff.mp h
    have hstep : t.step place name = .ok target := (bind_pure (t.step place name)).symm.trans hlast
    exact ⟨place, hbase, (step_name_eq_ok hname hstep).1⟩

/-- A path that goes on with names leads to where the names begin, and on along the names. -/
theorem exists_base_of_resolve {names : List String} (hnames : ∀ name ∈ names, IsName name)
    (hne : names ≠ []) (h : t.resolve (p.under names) = .ok target) :
    ∃ place, t.base p = .ok place ∧ target = place ++ names := by
  induction names generalizing p with
  | nil => exact absurd rfl hne
  | cons name names ih =>
    obtain ⟨hname, hnames⟩ := List.forall_mem_cons.mp hnames
    cases names with
    | nil => exact exists_base_of_walk hname (walk_eq_ok_iff.mp h).2
    | cons name' names =>
      obtain ⟨next, hnext, rfl⟩ := ih hnames (List.cons_ne_nil _ _) h
      rw [base, stem_join hname] at hnext
      obtain ⟨place, hbase, rfl⟩ := exists_base_of_walk hname hnext
      exact ⟨place, hbase, by rw [List.append_assoc, List.singleton_append]⟩

/-- Different names lead to different places. -/
theorem names_eq_of_resolve {names names' : List String} (hnames : ∀ name ∈ names, IsName name)
    (hne : names ≠ []) (hnames' : ∀ name ∈ names', IsName name) (hne' : names' ≠ [])
    (h : t.resolve (p.under names) = .ok target) (h' : t.resolve (p.under names') = .ok target) :
    names = names' := by
  obtain ⟨place, hbase, heq⟩ := exists_base_of_resolve hnames hne h
  obtain ⟨place', hbase', heq'⟩ := exists_base_of_resolve hnames' hne' h'
  cases hbase.symm.trans hbase'
  exact List.append_cancel_left (heq.symm.trans heq')

/-- The tree grows, and files keep their content. -/
structure Keeps (t t' : FileTree) : Prop extends Grows t t' where
  file : ∀ place content, t.node? place = some (.file content) →
    t'.node? place = some (.file content)

theorem Keeps.refl (t : FileTree) : t.Keeps t := ⟨⟨fun _ h => h, fun _ h => h⟩, fun _ _ h => h⟩

theorem Keeps.trans (h : t.Keeps t') (h' : t'.Keeps t'') : t.Keeps t'' where
  toGrows := h.toGrows.trans h'.toGrows
  file place content hplace := h'.file place content (h.file place content hplace)

theorem keeps_insert_directory (hk : target ≠ []) (hnone : t.node? target = none) :
    t.Keeps (t.insert target .directory) where
  toGrows := grows_insert hk (.inl rfl)
  file place content hplace := by
    rw [node?_insert hk, if_neg]
    · exact hplace
    · intro heq
      rw [heq, hnone] at hplace
      cases hplace

/-- Nothing has the name of a segment that is missing in a directory. -/
theorem step_eq_missing (hnode : t.node? place = some .directory)
    (h : t.step place segment = .error .missing) :
    ¬ (segment = "" ∨ segment = ".") ∧ segment ≠ ".." ∧
      segment.utf8ByteSize ≤ Path.longestName ∧ t.child? place segment = none := by
  simp only [step, hnode] at h
  split at h
  · cases h
  · rename_i hskip
    split at h
    · cases h
    · rename_i hback
      split at h
      · cases h
      · rename_i hsize
        split at h
        · cases h
        · rename_i hchild
          exact ⟨hskip, hback, Nat.le_of_not_lt hsize, hchild⟩

theorem keeps_makePlaces (t : FileTree) (place : Place) (segments : List String) :
    t.Keeps (t.makePlaces place segments).1 := by
  induction segments generalizing t place with
  | nil => exact Keeps.refl t
  | cons s ss ih =>
    rw [makePlaces]
    split
    · exact ih t _
    · rename_i hstep
      split
      · rename_i hnode
        obtain ⟨-, -, -, hchild⟩ := step_eq_missing (any_isDirectory_iff.mp hnode) hstep
        exact (keeps_insert_directory (by simp) hchild).trans (ih _ _)
      · exact Keeps.refl t
    · exact Keeps.refl t

theorem keeps_makeDirectory (t : FileTree) (p : Path) : t.Keeps (t.makeDirectory p).1 := by
  unfold makeDirectory
  split
  · exact Keeps.refl t
  · split
    · exact Keeps.refl t
    · split
      · dsimp only
        exact keeps_makePlaces t [] p.parent.segments
      · exact keeps_makePlaces t [] p.segments

theorem read_eq_ok_iff :
    t.read p = .ok content ↔ ∃ place, t.resolve p = .ok place ∧
      t.node? place = some (.file content) := by
  unfold read
  cases t.resolve p with
  | error fault => simp
  | ok place =>
    simp only [Except.ok.injEq, exists_eq_left']
    cases t.node? place with
    | none => simp
    | some node => cases node <;> simp

theorem Keeps.read (h : t.Keeps t') (hp : t.read p = .ok content) : t'.read p = .ok content := by
  obtain ⟨place, hresolve, hnode⟩ := read_eq_ok_iff.mp hp
  exact read_eq_ok_iff.mpr ⟨place, h.resolve hresolve, h.file place content hnode⟩

theorem segments_ne_nil (p : Path) : p.segments ≠ [] := by
  intro h
  exact Path.splitSlash_ne_nil _ (List.map_eq_nil_iff.mp h)

theorem segments_eq_concat (p : Path) :
    p.segments = p.segments.dropLast ++ [p.segments.getLast?.getD ""] := by
  have hlast := List.getLast?_eq_some_getLast (segments_ne_nil p)
  rw [hlast, Option.getD_some, List.dropLast_concat_getLast]

/-- A file is written to one place, to which its path leads afterwards. -/
theorem exists_of_writeFile (h : t.writeFile p content = .ok t') :
    ∃ target, target ≠ [] ∧ t.node? target ≠ some .directory ∧
      t' = t.insert target (.file content) ∧ t'.resolve p = .ok target := by
  unfold writeFile at h
  obtain ⟨place, hwalk, h⟩ := bind_eq_ok_iff.mp h
  obtain ⟨hfault, hinit⟩ := walk_eq_ok_iff.mp hwalk
  simp only at h
  have hne {target : Place} (hnode : t.node? target ≠ some .directory) : target ≠ [] := by
    intro hnil
    subst hnil
    exact hnode rfl
  -- The path leads to the place if its last segment does.
  have hresolve {t' : FileTree} {target : Place} (hgrows : t.Grows t')
      (hstep : t'.step place (p.segments.getLast?.getD "") = .ok target) :
      t'.resolve p = .ok target := by
    refine walk_eq_ok_iff.mpr ⟨hfault, ?_⟩
    rw [segments_eq_concat p, List.foldlM_append, hgrows.foldlM_step hinit]
    exact (bind_pure (t'.step place _)).trans hstep
  split at h
  · rename_i target hstep
    split at h
    · cases h
    · rename_i hdir
      have hnode : t.node? target ≠ some .directory := mt any_isDirectory_iff.mpr hdir
      cases h
      have hgrows : t.Grows (t.insert _ (.file content)) := grows_insert (hne hnode) (.inr hnode)
      exact ⟨target, hne hnode, hnode, rfl, hresolve hgrows (hgrows.step hstep)⟩
  · rename_i hstep
    split at h
    · rename_i hdir
      have hplace := any_isDirectory_iff.mp hdir
      obtain ⟨hskip, hback, hsize, hchild⟩ := step_eq_missing hplace hstep
      have hnode : t.node? (place ++ [p.segments.getLast?.getD ""]) ≠ some .directory := by
        rw [← child?, hchild]
        exact (Option.some_ne_none _).symm
      cases h
      have hgrows : t.Grows (t.insert _ (.file content)) := grows_insert (hne hnode) (.inr hnode)
      refine ⟨_, hne hnode, hnode, rfl, hresolve hgrows ?_⟩
      simp only [step, hgrows.directory place hplace]
      rw [if_neg hskip, if_neg hback, if_neg (Nat.not_lt.mpr hsize), child?,
        node?_insert (hne hnode), if_pos rfl]
    · cases h
  · cases h

theorem read_of_writeFile (h : t.writeFile p content = .ok t') : t'.read p = .ok content := by
  obtain ⟨target, hne, -, rfl, hresolve⟩ := exists_of_writeFile h
  refine read_eq_ok_iff.mpr ⟨target, hresolve, ?_⟩
  rw [node?_insert hne, if_pos rfl]

theorem grows_of_writeFile (h : t.writeFile p content = .ok t') : t.Grows t' := by
  obtain ⟨target, hne, hnode, rfl, -⟩ := exists_of_writeFile h
  exact grows_insert hne (.inr hnode)

/-- A file that lies elsewhere keeps its content. -/
theorem read_of_writeFile_of_ne {content' : Bytes} (h : t.writeFile p content' = .ok t')
    (hq : t.read q = .ok content) (hne : t'.resolve p ≠ t'.resolve q) :
    t'.read q = .ok content := by
  obtain ⟨place, hresolve, hnode⟩ := read_eq_ok_iff.mp hq
  have hplace := (grows_of_writeFile h).resolve hresolve
  obtain ⟨target, htarget, -, rfl, hp⟩ := exists_of_writeFile h
  refine read_eq_ok_iff.mpr ⟨place, hplace, ?_⟩
  rw [node?_insert htarget, if_neg]
  · exact hnode
  · intro heq
    exact hne (hp.trans (heq ▸ hplace.symm))

end FileTree

namespace RunRecipe

open FileTree (Grows eq_ok_of_after)

variable {t t' : FileTree} {a : Action} {actions : List Action} {q : Path} {content : Bytes}

theorem Action.grows (h : a.run t = (t', true)) : t.Grows t' := by
  cases a with
  | makeDirectory p =>
    have hkeeps := FileTree.keeps_makeDirectory t p
    rw [show t.makeDirectory p = (t', true) from h] at hkeeps
    exact hkeeps.toGrows
  | writeFile p content => exact FileTree.grows_of_writeFile (eq_ok_of_after h)

/-- An action leaves a file as it is, unless it writes something else to its place. -/
theorem Action.read_of_read (h : a.run t = (t', true)) (hq : t.read q = .ok content)
    (hsame : ∀ q' content', a = .writeFile q' content' → t'.resolve q' = t'.resolve q →
      content' = content) : t'.read q = .ok content := by
  cases a with
  | makeDirectory p =>
    have hkeeps := FileTree.keeps_makeDirectory t p
    rw [show t.makeDirectory p = (t', true) from h] at hkeeps
    exact hkeeps.read hq
  | writeFile p content' =>
    have hwrite : t.writeFile p content' = .ok t' := eq_ok_of_after h
    by_cases heq : t'.resolve p = t'.resolve q
    · have hread := FileTree.read_of_writeFile hwrite
      rw [hsame p content' rfl heq] at hread
      obtain ⟨place, hresolve, hnode⟩ := FileTree.read_eq_ok_iff.mp hread
      exact FileTree.read_eq_ok_iff.mpr ⟨place, heq ▸ hresolve, hnode⟩
    · exact FileTree.read_of_writeFile_of_ne hwrite hq heq

theorem grows_runActions (h : runActions actions t = (t', true)) : t.Grows t' := by
  induction actions generalizing t with
  | nil =>
    cases h
    exact (FileTree.Keeps.refl _).toGrows
  | cons a actions ih =>
    obtain ⟨next, hnext, hrest⟩ := runActions_cons_eq h
    exact Grows.trans (Action.grows hnext) (ih hrest)

/-- The path of a file that was written leads somewhere. -/
theorem exists_resolve_of_mem (h : runActions actions t = (t', true))
    (hmem : .writeFile q content ∈ actions) : ∃ place, t'.resolve q = .ok place := by
  induction actions generalizing t with
  | nil => cases hmem
  | cons a actions ih =>
    obtain ⟨next, hnext, hrest⟩ := runActions_cons_eq h
    rcases List.mem_cons.mp hmem with rfl | hmem
    · obtain ⟨place, -, -, -, hresolve⟩ := FileTree.exists_of_writeFile (eq_ok_of_after hnext)
      exact ⟨place, (grows_runActions hrest).resolve hresolve⟩
    · exact ih hrest hmem

/-- A file that was there or was written holds its content in the end, if nothing else was written
to its place. -/
theorem read_runActions (h : runActions actions t = (t', true))
    (hq : t.read q = .ok content ∨ .writeFile q content ∈ actions)
    (hsame : ∀ q' content', .writeFile q' content' ∈ actions →
      t'.resolve q' = t'.resolve q → content' = content) : t'.read q = .ok content := by
  induction actions generalizing t with
  | nil =>
    cases h
    rcases hq with hq | hq
    · exact hq
    · cases hq
  | cons a actions ih =>
    obtain ⟨next, hnext, hrest⟩ := runActions_cons_eq h
    have hgrows := grows_runActions hrest
    refine ih hrest ?_ fun q' content' hmem => hsame q' content' (List.mem_cons_of_mem _ hmem)
    rcases hq with hq | hq
    · left
      refine Action.read_of_read hnext hq fun q' content' ha heq => ?_
      -- Both paths lead to one place in the next tree already, so they do in the last one.
      obtain ⟨place, hresolve, -⟩ := FileTree.read_eq_ok_iff.mp hq
      have hplace := (Action.grows hnext).resolve hresolve
      refine hsame q' content' (ha ▸ List.mem_cons_self) ?_
      rw [hgrows.resolve hplace, hgrows.resolve (heq.trans hplace)]
    · rcases List.mem_cons.mp hq with rfl | hq
      · exact .inl (FileTree.read_of_writeFile (eq_ok_of_after hnext))
      · exact .inr hq

end RunRecipe

end GridSnapshot
