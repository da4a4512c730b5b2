import GridSnapshot.Proofs.SettledPlan
import GridSnapshot.Proofs.TextLines

namespace GridSnapshot

namespace SnapshotChoice

variable {n : Nat}

theorem toList_recordFile (n : Nat) :
    ((number n).fileName false).toList = 'V' :: 'A' :: 'R' :: Nat.toDigits 10 n := by
  have hname : (number n).fileName false = "VAR" ++ toString n := rfl
  rw [hname, String.toList_append, Nat.toString_eq_repr, Nat.toList_repr]
  rfl

theorem toList_containerFile (n : Nat) : ((number n).fileName true).toList =
    'V' :: 'A' :: 'R' :: (Nat.toDigits 10 n ++ ".h5".toList) := by
  have hname : (number n).fileName true = "VAR" ++ toString n ++ ".h5" := rfl
  rw [hname, String.toList_append, String.toList_append, Nat.toString_eq_repr, Nat.toList_repr]
  rfl

/-- A number starts with a digit, so it has none of the letters in front that a name may have. -/
theorem exists_toDigits_append (n : Nat) (rest : List Char) : ∃ c cs, c.isDigit = true ∧
    Nat.toDigits 10 n ++ rest = c :: cs ∧ (c :: cs).dropWhile (· = 'd') = c :: cs := by
  cases hdigits : Nat.toDigits 10 n with
  | nil => exact absurd hdigits Nat.toDigits_ne_nil
  | cons c cs =>
    have hmem : c ∈ Nat.toDigits 10 n := by
      rw [hdigits]
      exact List.mem_cons_self
    have hc : c.isDigit = true := Nat.isDigit_of_mem_toDigits (by decide) (by decide) hmem
    have hletter : c ≠ 'd' := by
      rintro rfl
      exact absurd hc (by decide)
    exact ⟨c, cs ++ rest, hc, rfl, List.dropWhile_cons_of_neg (by simpa using hletter)⟩

theorem numberIn?_recordFile (hn : n < Word.count 4) :
    numberIn? ((number n).fileName false) = some n := by
  obtain ⟨c, cs, -, heq, hdrop⟩ := exists_toDigits_append n []
  rw [List.append_nil] at heq
  have hread := Decimal.parseBelow_toDigits hn
  rw [heq] at hread
  unfold numberIn?
  rw [toList_recordFile, heq]
  simp only [hdrop, hread]
  rfl

theorem numberIn?_containerFile (n : Nat) : numberIn? ((number n).fileName true) = none := by
  obtain ⟨c, cs, hc, heq, hdrop⟩ := exists_toDigits_append n ".h5".toList
  have hpoint : '.' ∈ c :: cs := by
    rw [← heq]
    exact List.mem_append_right _ (by decide)
  obtain ⟨e, he⟩ := Decimal.exists_readDigits_eq_error (Word.count 4) 0
    ⟨'.', hpoint, by decide⟩
  unfold numberIn?
  rw [toList_containerFile, heq]
  simp only [hdrop, Decimal.parseBelow_cons (Decimal.ne_plus_of_isDigit hc), he]
  rfl

/-- The file of a numbered snapshot counts as the snapshot does, unless it is a container file. -/
theorem mayPrecedeStart_file_iff (hn : n < Word.count 4) (container : Bool) :
    (file ((number n).fileName container)).mayPrecedeStart = (number n).mayPrecedeStart ↔
      container = false ∨ n = 0 := by
  cases container with
  | false => simp only [mayPrecedeStart, numberIn?_recordFile hn, true_or]
  | true => simp [mayPrecedeStart, numberIn?_containerFile, eq_comm]

end SnapshotChoice

open Outcome

namespace Outcome

variable {ε α β σ : Type} {P : ε → Prop}

/-- Whenever a step fails, its failure is of a kind. -/
def FailsOnly (P : ε → Prop) (x : ExceptT ε (StateM σ) α) : Prop :=
  ∀ s e s', Fails x s e s' → P e

theorem failsOnly_pure (a : α) : FailsOnly P (pure a : ExceptT ε (StateM σ) α) := by
  intro s e s' h
  cases h

theorem FailsOnly.bind {x : ExceptT ε (StateM σ) α} {f : α → ExceptT ε (StateM σ) β}
    (hx : FailsOnly P x) (hf : ∀ a, FailsOnly P (f a)) : FailsOnly P (x >>= f) := by
  intro s e s' h
  rcases fails_bind_iff.mp h with h | ⟨a, t, -, h⟩
  · exact hx s e s' h
  · exact hf a t e s' h

end Outcome

/-- A failure that is not for want of a first step of the run. -/
def ReadFault.IsOther (e : ReadFault) : Prop := e.isNotStarted = false

namespace Planning

variable {σ ω α : Type}

theorem failsOnly_check {x : Except ReadFault α} (h : ∀ e, x = .error e → e.IsOther) :
    FailsOnly ReadFault.IsOther (check x : Planning σ ω α) := by
  intro s e s' hfails
  cases hfails
  exact h e rfl

theorem failsOnly_consult (step : Consulting σ ω α) :
    FailsOnly ReadFault.IsOther (consult step : Planning σ ω α) := by
  intro s e s' h
  unfold Fails consult at h
  simp only [ExceptT.run_mk, StateT.run_bind] at h
  generalize step.run.run s = first at h
  obtain ⟨outcome, t⟩ : Except MetadataFault α × (MetadataCache ω × σ) := first
  cases outcome with
  | error fault =>
    cases h
    rfl
  | ok a => cases h

end Planning

theorem Storage.isOther_of_ofRun {ω : Type} {tree : FileTree} {dir : Path} {params : RunSettings ω}
    {e : ReadFault} (h : ofRun tree dir params = .error e) : e.IsOther := by
  unfold ofRun at h
  split at h
  · cases h
  · split at h
    · cases h
    · split at h
      · cases h
      · cases h
        rfl

namespace SnapshotDir

variable {tree : FileTree} {dir : Path} {e : ReadFault}

theorem isOther_of_discover (h : discover tree dir = .error e) : e.IsOther := by
  unfold discover at h
  split at h
  · cases h
    rfl
  · cases h

theorem isOther_of_select {storage : Storage} {p : ProcessorChoice}
    (h : select tree dir storage p = .error e) : e.IsOther := by
  unfold select at h
  split at h
  · cases h
  · cases hdiscover : discover tree dir with
    | error fault =>
      rw [hdiscover] at h
      cases h
      exact isOther_of_discover hdiscover
    | ok dirs =>
      rw [hdiscover] at h
      cases dirs with
      | nil =>
        cases h
        rfl
      | cons d ds => cases h
  · cases h

end SnapshotDir

namespace ReadPlan

variable {σ ω : Type} {src : MetadataSupplier σ ω} {tree : FileTree} {res : Resolution}

theorem isOther_of_snapshotFile {dir : Path} {storage : Storage} {d : SnapshotDir} {name : String}
    {e : ReadFault} (h : snapshotFile tree dir storage d name = .error e) : e.IsOther := by
  simp only [snapshotFile] at h
  split at h
  · cases h
    rfl
  · cases h

theorem failsOnly_findSubdomains {dir : Directory} {storage : Storage} {whole : Dimensions}
    {name : String} (ds : List SnapshotDir) : FailsOnly ReadFault.IsOther
      (findSubdomains src tree dir res storage whole name ds) := by
  induction ds with
  | nil => exact failsOnly_pure _
  | cons d ds ih =>
    have hfirst : FailsOnly ReadFault.IsOther
        (findSubdomain src tree dir res storage whole name d) := by
      refine (Planning.failsOnly_check fun e => isOther_of_snapshotFile).bind fun p => ?_
      cases d.processor with
      | some n => exact (Planning.failsOnly_consult _).bind fun _ => failsOnly_pure _
      | none => exact failsOnly_pure _
    exact hfirst.bind fun sub => ih.bind fun _ => failsOnly_pure _

theorem failsOnly_findGrid (dir : Directory) :
    FailsOnly ReadFault.IsOther (findGrid src dir res) := by
  cases res with
  | downsampled => exact failsOnly_pure _
  | standard => exact Planning.failsOnly_consult _

variable {dir : Path} {o : ReadOptions} {s : MetadataCache ω × σ}

/-- A read is refused because the run has not started. -/
def Refuses (src : MetadataSupplier σ ω) (tree : FileTree) (dir : Path) (o : ReadOptions)
    (s : MetadataCache ω × σ) : Prop :=
  ∃ e s', Fails (make src tree dir o) s e s' ∧ e.isNotStarted = true

/-- The guard in front of a plan fails for one reason only. -/
theorem checkStarted_eq (tree : FileTree) (dir : Path) (c : SnapshotChoice) :
    checkStarted tree dir c =
      if c.mayPrecedeStart = false ∧ tree.isPresent (dir.join startedMarker) = false then
        .error (.notStarted (c.fileName false))
      else .ok () := by
  simp only [checkStarted, Bool.not_eq_true]

/-- A read is refused by the guard or not at all. -/
theorem refuses_iff : Refuses src tree dir o s ↔
    o.snapshot.mayPrecedeStart = false ∧ tree.isPresent (dir.join startedMarker) = false := by
  have hguard := checkStarted_eq tree dir o.snapshot
  constructor
  · rintro ⟨e, s', h, hrefused⟩
    by_contra hnot
    rw [if_neg hnot] at hguard
    unfold make at h
    rw [hguard] at h
    rcases fails_bind_iff.mp h with hfirst | ⟨_, _, -, hrest⟩
    · cases hfirst
    · have hother : e.IsOther := ((Planning.failsOnly_consult _).bind fun metadata =>
        (Planning.failsOnly_check fun _ => Storage.isOther_of_ofRun).bind fun storage =>
        (Planning.failsOnly_check fun _ => SnapshotDir.isOther_of_select).bind fun dirs =>
        (failsOnly_findSubdomains dirs).bind fun subs =>
        (failsOnly_findGrid _).bind fun grid => failsOnly_pure _) _ _ _ hrest
      rw [ReadFault.IsOther, hrefused] at hother
      cases hother
  · intro h
    rw [if_pos h] at hguard
    refine ⟨.notStarted (o.snapshot.fileName false), s, ?_, rfl⟩
    unfold make
    rw [hguard]
    exact Fails.bind rfl

/-- Asking for a numbered snapshot and asking for its file are refused alike before a run starts,
unless the file is a container file, which is refused in no run. -/
theorem refuses_file_iff {n : Nat} (hn : n < Word.count 4) (container : Bool)
    (src : MetadataSupplier σ ω) (tree : FileTree) (dir : Path) (o : ReadOptions)
    (s : MetadataCache ω × σ) :
    let numbered : SnapshotChoice := .number n
    let named : SnapshotChoice := .file (numbered.fileName container)
    (named.mayPrecedeStart = numbered.mayPrecedeStart ↔ container = false ∨ n = 0) ∧
    ((Refuses src tree dir { o with snapshot := named } s ↔
        Refuses src tree dir { o with snapshot := numbered } s) ↔
      container = false ∨ n = 0 ∨ tree.isPresent (dir.join startedMarker) = true) := by
  intro numbered named
  have hsame := SnapshotChoice.mayPrecedeStart_file_iff hn container
  refine ⟨hsame, ?_⟩
  rw [refuses_iff, refuses_iff]
  cases hstarted : tree.isPresent (dir.join startedMarker) with
  | true => simp
  | false =>
    have hfalse : (named.mayPrecedeStart = false ↔ numbered.mayPrecedeStart = false) ↔
        named.mayPrecedeStart = numbered.mayPrecedeStart := by
      cases named.mayPrecedeStart <;> cases numbered.mayPrecedeStart <;> simp
    simp only [and_true, hfalse, Bool.false_eq_true, or_false]
    exact hsame

/-- A run that wrote nothing yet. -/
def unstartedRun : FileTree := .ofList [(["run"], .directory)]

/-- What is known of it: one cell, and the tag of its output. -/
def unstartedMetadata (tag : String) : FixedMetadata Float where
  run := ⟨⟨.uniform 1, .uniform 0, 1, 0, .double, .uniform 1, .uniform 0⟩,
    { RunSettings.standard with ioStrategy := some tag }, .ofList [("lnrho", 1)]⟩
  processors := .empty
  grid := none

/-- A read of all of it. -/
def readOf (c : SnapshotChoice) : ReadOptions := ⟨c, .all, true, false, true, 2⟩

/-- The seventh snapshot is refused by its number and by the name of its record file. -/
theorem refuses_file_iff_seventh :
    let source : MetadataSupplier Unit Float := (unstartedMetadata "dist").supplier
    7 < Word.count 4 ∧
      Refuses source unstartedRun ⟨"run"⟩ (readOf (.number 7)) (.empty, ()) ∧
      Refuses source unstartedRun ⟨"run"⟩ (readOf (.file "VAR7")) (.empty, ()) := by
  intro source
  have hword : 7 < Word.count 4 := by decide
  have hnumber : Refuses source unstartedRun ⟨"run"⟩ (readOf (.number 7)) (.empty, ()) :=
    refuses_iff.mpr ⟨rfl, by decide⟩
  have hfile := (refuses_file_iff hword false source unstartedRun ⟨"run"⟩ (readOf .latest)
    (.empty, ())).2.mpr (.inl rfl)
  exact ⟨hword, hnumber, hfile.mpr hnumber⟩

/-- Its container file is planned to be read, although the run has not started. -/
theorem make_containerFile_unstartedRun :
    let source : MetadataSupplier Unit Float := (unstartedMetadata "HDF5").supplier
    (SnapshotChoice.number 7).fileName true = "VAR7.h5" ∧
      Refuses source unstartedRun ⟨"run"⟩ (readOf (.number 7)) (.empty, ()) ∧
      ¬ Refuses source unstartedRun ⟨"run"⟩ (readOf (.file "VAR7.h5")) (.empty, ()) ∧
      ∃ plan, ((make source unstartedRun ⟨"run"⟩ (readOf (.file "VAR7.h5"))).run.run
        (.empty, ())).1 = .ok plan ∧
        plan.subdomains.map Subdomain.path = [⟨"run/allprocs/VAR7.h5"⟩] := by
  intro source
  have hmay : SnapshotChoice.mayPrecedeStart (.file "VAR7.h5") = true := by decide
  refine ⟨rfl, refuses_iff.mpr ⟨rfl, by decide⟩, fun h => ?_, _, rfl, by decide⟩
  have hmayNot := (refuses_iff.mp h).1
  rw [readOf, hmay] at hmayNot
  cases hmayNot

end ReadPlan

end GridSnapshot
