import GridSnapshot.Metadata.Cache
import GridSnapshot.Proofs.Outcome
import GridSnapshot.Proofs.Tables

namespace GridSnapshot

open Outcome

variable {σ ω α : Type} {src : MetadataSupplier σ ω} {w : σ} {dir : Directory} {res : Resolution}

/-- Whatever is asked in a state leaves the state as it is. -/
structure MetadataSupplier.Steady (src : MetadataSupplier σ ω) (w : σ) : Prop where
  runMetadata : ∀ p res, ((src.runMetadata p res).run w).2 = w
  processorDims : ∀ p n res, ((src.processorDims p n res).run w).2 = w
  grid : ∀ p d, ((src.grid p d).run w).2 = w

def MetadataSupplier.answer (question : StateM σ (Except MetadataFault α)) (w : σ) :
    Except MetadataFault α :=
  (question.run w).1

open MetadataSupplier (answer)

/-- What is kept of a run is what the source answers. -/
structure CachedRun.Valid (run : CachedRun ω) (src : MetadataSupplier σ ω) (w : σ)
    (dir : Directory) (res : Resolution) : Prop where
  metadata_eq : answer (src.runMetadata dir.path res) w = .ok run.metadata
  processors_eq : ∀ n d, run.processors.get? n = some d →
    answer (src.processorDims dir.path n res) w = .ok d
  grid_eq : ∀ g, run.grid = some g →
    MetadataCache.noGridAsNone (answer (src.grid dir.path run.metadata.dims) w) = .ok g

namespace MetadataCache

variable {c : MetadataCache ω}

/-- What is kept of a run directory is what the source answers. -/
def Valid (c : MetadataCache ω) (src : MetadataSupplier σ ω) (w : σ) (dir : Directory)
    (res : Resolution) : Prop :=
  ∀ run, c.runs.get? (dir.place, res) = some run → run.Valid src w dir res

theorem valid_of_get?_eq_none (h : c.runs.get? (dir.place, res) = none) :
    c.Valid src w dir res := by
  intro run hrun
  rw [h] at hrun
  cases hrun

theorem valid_of_get?_eq_some {run : CachedRun ω} (h : c.runs.get? (dir.place, res) = some run)
    (hrun : run.Valid src w dir res) : c.Valid src w dir res := by
  intro run' hrun'
  rw [h, Option.some.injEq] at hrun'
  exact hrun' ▸ hrun

theorem Valid.put {run : CachedRun ω} (h : run.Valid src w dir res) :
    (c.put (dir.place, res) run).Valid src w dir res :=
  valid_of_get?_eq_some (Table.get?_insert_self ..) h

theorem run_ask (question : StateM σ (Except MetadataFault α)) :
    (ask question).run.run (c, w) = (answer question w, (c, (question.run w).2)) := rfl

theorem yields_ask {question : StateM σ (Except MetadataFault α)} {a : α}
    (hw : (question.run w).2 = w) (ha : answer question w = .ok a) :
    Yields (ask question) (c, w) a (c, w) := by
  rw [Yields, run_ask, hw, ha]

theorem fails_ask {question : StateM σ (Except MetadataFault α)} {e : MetadataFault}
    (hw : (question.run w).2 = w) (he : answer question w = .error e) :
    Fails (ask question) (c, w) e (c, w) := by
  rw [Fails, run_ask, hw, he]

variable (hsteady : src.Steady w)
include hsteady

/-- The entry of a run is there, or it is made from the source's answer. -/
theorem exists_yields_entry {metadata : RunMetadata ω} (hv : c.Valid src w dir res)
    (hm : answer (src.runMetadata dir.path res) w = .ok metadata) :
    ∃ run c', Yields (entry src dir res) (c, w) run (c', w) ∧ run.Valid src w dir res ∧
      run.metadata = metadata ∧ c'.runs.get? (dir.place, res) = some run := by
  cases hget : c.runs.get? (dir.place, res) with
  | some run =>
    have hrun := hv run hget
    have heq : run.metadata = metadata := by
      have := hrun.metadata_eq.symm.trans hm
      cases this
      rfl
    refine ⟨run, c.countHit, ?_, hrun, heq, hget⟩
    unfold entry
    refine yields_bind_iff.mpr ⟨(c, w), (c, w), rfl, ?_⟩
    simp only [hget]
    rfl
  | none =>
    refine ⟨⟨metadata, .empty, none⟩, c.countMiss.put (dir.place, res) ⟨metadata, .empty, none⟩,
      ?_, ⟨hm, ?_, ?_⟩, rfl, ?_⟩
    · unfold entry
      refine yields_bind_iff.mpr ⟨(c, w), (c, w), rfl, ?_⟩
      simp only [hget]
      refine yields_bind_iff.mpr ⟨(), (c.countMiss, w), rfl, ?_⟩
      refine yields_bind_iff.mpr ⟨metadata, (c.countMiss, w), ?_, rfl⟩
      exact yields_ask (hsteady.runMetadata _ _) hm
    · intro n d h
      cases h
    · intro g h
      cases h
    · rw [MetadataCache.put, Table.get?_insert_self]

theorem exists_yields_run {metadata : RunMetadata ω} (hv : c.Valid src w dir res)
    (hm : answer (src.runMetadata dir.path res) w = .ok metadata) :
    ∃ c', Yields (run src dir res) (c, w) metadata (c', w) ∧ c'.Valid src w dir res := by
  obtain ⟨run', c', hentry, hrun, rfl, hget⟩ := exists_yields_entry hsteady hv hm
  refine ⟨c', ?_, valid_of_get?_eq_some hget hrun⟩
  exact yields_bind_iff.mpr ⟨run', (c', w), hentry, yields_pure_iff.mpr ⟨rfl, rfl⟩⟩

/-- Without the source's answer there is no entry. -/
theorem exists_fails_entry {e : MetadataFault} (hv : c.Valid src w dir res)
    (hm : answer (src.runMetadata dir.path res) w = .error e) :
    ∃ c', Fails (entry src dir res) (c, w) e (c', w) := by
  cases hget : c.runs.get? (dir.place, res) with
  | some run => cases (hv run hget).metadata_eq.symm.trans hm
  | none =>
    refine ⟨c.countMiss, ?_⟩
    unfold entry
    refine Yields.bind_fails (a := (c, w)) (t := (c, w)) rfl ?_
    simp only [hget]
    refine Yields.bind_fails (a := ()) (t := (c.countMiss, w)) rfl ?_
    exact (fails_ask (hsteady.runMetadata _ _) hm).bind

/-- What a valid cache says of a run is what the source answers. -/
theorem answer_of_yields_run {metadata : RunMetadata ω} {s' : MetadataCache ω × σ}
    (hv : c.Valid src w dir res) (h : Yields (run src dir res) (c, w) metadata s') :
    answer (src.runMetadata dir.path res) w = .ok metadata ∧
      ∃ c', s' = (c', w) ∧ c'.Valid src w dir res := by
  cases hm : answer (src.runMetadata dir.path res) w with
  | error e =>
    obtain ⟨c', hfails⟩ := exists_fails_entry hsteady hv hm
    exact absurd hfails.bind h.not_fails
  | ok metadata' =>
    obtain ⟨c', hyields, hv'⟩ := exists_yields_run hsteady hv hm
    obtain ⟨rfl, rfl⟩ := h.unique hyields
    exact ⟨rfl, c', rfl, hv'⟩

theorem exists_yields_update {metadata : RunMetadata ω} {f : CachedRun ω → CachedRun ω}
    (hv : c.Valid src w dir res) (hm : answer (src.runMetadata dir.path res) w = .ok metadata)
    (hf : ∀ run : CachedRun ω, run.Valid src w dir res → (f run).Valid src w dir res) :
    ∃ c', Yields (update src dir res f) (c, w) () (c', w) ∧ c'.Valid src w dir res := by
  obtain ⟨run', c', hentry, hrun, -, -⟩ := exists_yields_entry hsteady hv hm
  refine ⟨c'.put (dir.place, res) (f run'), ?_, Valid.put (hf run' hrun)⟩
  exact yields_bind_iff.mpr ⟨run', (c', w), hentry, rfl⟩

theorem exists_yields_processorDims {metadata : RunMetadata ω} {n : Nat} {d : Dimensions}
    (hv : c.Valid src w dir res) (hm : answer (src.runMetadata dir.path res) w = .ok metadata)
    (hd : answer (src.processorDims dir.path n res) w = .ok d) :
    ∃ c', Yields (processorDims src dir n res) (c, w) d (c', w) ∧ c'.Valid src w dir res := by
  obtain ⟨run', c', hentry, hrun, -, hget⟩ := exists_yields_entry hsteady hv hm
  have hv' : c'.Valid src w dir res := valid_of_get?_eq_some hget hrun
  cases hn : run'.processors.get? n with
  | some d' =>
    have hd' := (hrun.processors_eq n d' hn).symm.trans hd
    cases hd'
    refine ⟨c', yields_bind_iff.mpr ⟨run', (c', w), hentry, ?_⟩, hv'⟩
    simp only [hn]
    rfl
  | none =>
    obtain ⟨c'', hupdate, hv''⟩ := exists_yields_update hsteady
      (f := fun run => { run with processors := run.processors.insert n d }) hv' hm
      fun run h => by
        refine ⟨h.metadata_eq, fun n' d' h' => ?_, h.grid_eq⟩
        rw [Table.get?_insert] at h'
        split at h'
        · rename_i heq
          cases h'
          rw [heq]
          exact hd
        · exact h.processors_eq n' d' h'
    refine ⟨c'', yields_bind_iff.mpr ⟨run', (c', w), hentry, ?_⟩, hv''⟩
    simp only [hn]
    refine yields_bind_iff.mpr ⟨d, (c', w), yields_ask (hsteady.processorDims _ _ _) hd, ?_⟩
    exact yields_bind_iff.mpr ⟨(), (c'', w), hupdate, yields_pure_iff.mpr ⟨rfl, rfl⟩⟩

/-- A failure is not kept, so nothing that is kept stands in its way. -/
theorem exists_fails_processorDims {metadata : RunMetadata ω} {n : Nat} {e : MetadataFault}
    (hv : c.Valid src w dir res) (hm : answer (src.runMetadata dir.path res) w = .ok metadata)
    (hd : answer (src.processorDims dir.path n res) w = .error e) :
    ∃ c', Fails (processorDims src dir n res) (c, w) e (c', w) := by
  obtain ⟨run', c', hentry, hrun, -, -⟩ := exists_yields_entry hsteady hv hm
  cases hn : run'.processors.get? n with
  | some d => cases (hrun.processors_eq n d hn).symm.trans hd
  | none =>
    refine ⟨c', hentry.bind_fails ?_⟩
    simp only [hn]
    exact (fails_ask (hsteady.processorDims _ _ _) hd).bind

/-- What a valid cache says of a processor's part is what the source answers. -/
theorem answer_of_yields_processorDims {metadata : RunMetadata ω} {n : Nat} {d : Dimensions}
    {s' : MetadataCache ω × σ} (hv : c.Valid src w dir res)
    (hm : answer (src.runMetadata dir.path res) w = .ok metadata)
    (h : Yields (processorDims src dir n res) (c, w) d s') :
    answer (src.processorDims dir.path n res) w = .ok d ∧
      ∃ c', s' = (c', w) ∧ c'.Valid src w dir res := by
  cases hd : answer (src.processorDims dir.path n res) w with
  | error e =>
    obtain ⟨c', hfails⟩ := exists_fails_processorDims hsteady hv hm hd
    exact absurd hfails h.not_fails
  | ok d' =>
    obtain ⟨c', hyields, hv'⟩ := exists_yields_processorDims hsteady hv hm hd
    obtain ⟨rfl, rfl⟩ := h.unique hyields
    exact ⟨rfl, c', rfl, hv'⟩

theorem exists_yields_grid {metadata : RunMetadata ω} {g : Option (Grid ω)}
    (hv : c.Valid src w dir res) (hm : answer (src.runMetadata dir.path res) w = .ok metadata)
    (hg : noGridAsNone (answer (src.grid dir.path metadata.dims) w) = .ok g) :
    ∃ c', Yields (grid src dir res) (c, w) g (c', w) ∧ c'.Valid src w dir res := by
  obtain ⟨run', c', hentry, hrun, rfl, hget⟩ := exists_yields_entry hsteady hv hm
  have hv' : c'.Valid src w dir res := valid_of_get?_eq_some hget hrun
  cases hgrid : run'.grid with
  | some g' =>
    have hg' := (hrun.grid_eq g' hgrid).symm.trans hg
    cases hg'
    refine ⟨c', yields_bind_iff.mpr ⟨run', (c', w), hentry, ?_⟩, hv'⟩
    simp only [hgrid]
    rfl
  | none =>
    obtain ⟨c'', hupdate, hv''⟩ := exists_yields_update hsteady
      (f := fun run => { run with grid := some g }) hv' hm fun run h => by
        refine ⟨h.metadata_eq, h.processors_eq, fun g' h' => ?_⟩
        have hsame : run.metadata = run'.metadata := by
          simpa using h.metadata_eq.symm.trans hm
        cases h'
        rw [hsame]
        exact hg
    refine ⟨c'', yields_bind_iff.mpr ⟨run', (c', w), hentry, ?_⟩, hv''⟩
    simp only [hgrid]
    refine yields_bind_iff.mpr ⟨g, (c', w), yields_ask ?_ ?_, ?_⟩
    · exact hsteady.grid _ _
    · exact hg
    · exact yields_bind_iff.mpr ⟨(), (c'', w), hupdate, yields_pure_iff.mpr ⟨rfl, rfl⟩⟩

theorem exists_fails_grid {metadata : RunMetadata ω} {e : MetadataFault}
    (hv : c.Valid src w dir res) (hm : answer (src.runMetadata dir.path res) w = .ok metadata)
    (hg : noGridAsNone (answer (src.grid dir.path metadata.dims) w) = .error e) :
    ∃ c', Fails (grid src dir res) (c, w) e (c', w) := by
  obtain ⟨run', c', hentry, hrun, rfl, -⟩ := exists_yields_entry hsteady hv hm
  cases hgrid : run'.grid with
  | some g =>
    have hg' := (hrun.grid_eq g hgrid).symm.trans hg
    cases hg'
  | none =>
    refine ⟨c', hentry.bind_fails ?_⟩
    simp only [hgrid]
    refine (fails_ask ?_ ?_).bind
    · exact hsteady.grid _ _
    · exact hg

end MetadataCache

end GridSnapshot
