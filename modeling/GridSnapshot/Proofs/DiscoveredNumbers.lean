import Mathlib.Data.Finset.Basic
import GridSnapshot.Proofs.NaturalTotality
import GridSnapshot.Proofs.PlannedDirectories
import GridSnapshot.Proofs.WrittenRun

namespace GridSnapshot

open MetadataFiles (processorDir)

namespace SnapshotDir

variable {name : String} {d : SnapshotDir} {tree : FileTree} {dir : Path} {names : List String}
  {numbers : Finset Nat} {m n : Nat}

/-- No number can be read from the name: it has another stem, or what comes behind the stem is
neither a digit nor a sign. -/
def IsOther (name : String) : Prop :=
  ∀ rest, suffix? name = some rest → ∃ c cs, rest = c :: cs ∧ ¬ c.isDigit ∧ c ≠ '+'

theorem parseSize?_eq_none {c : Char} {cs : List Char} (hdigit : ¬ c.isDigit) (hsign : c ≠ '+') :
    Decimal.parseSize? (c :: cs) = none :=
  Option.not_isSome_iff_eq_none.mp fun h =>
    hdigit (Decimal.isDigit_of_parseSize? h List.mem_cons_self hsign)

theorem ofName?_of_isOther (h : IsOther name) : ofName? name = none := by
  unfold ofName?
  cases hsuffix : suffix? name with
  | none => rfl
  | some rest =>
    obtain ⟨c, cs, rfl, hdigit, hsign⟩ := h rest hsuffix
    rw [Option.bind_eq_bind, Option.bind_some, parseSize?_eq_none hdigit hsign]
    rfl

/-- What lies in the directory of a run: a directory for each of some processors, and other things
that are not named like one. -/
structure Lists (names : List String) (numbers : Finset Nat) : Prop where
  lt_of_mem : ∀ n ∈ numbers, n < 2 ^ 64
  mem_names : ∀ n ∈ numbers, processorDir n ∈ names
  other : ∀ name ∈ names, (∃ n ∈ numbers, name = processorDir n) ∨ IsOther name

theorem Lists.ofName?_processorDir (h : Lists names numbers) (hn : n ∈ numbers) :
    ofName? (processorDir n) = some (numbered n) :=
  RunRecipe.LiesIn.ofName?_processorDir (h.lt_of_mem n hn)

theorem Lists.of_ofName? (h : Lists names numbers) (hname : name ∈ names)
    (hd : ofName? name = some d) : ∃ n ∈ numbers, name = processorDir n ∧ d = numbered n := by
  rcases h.other name hname with ⟨n, hn, rfl⟩ | hother
  · rw [h.ofName?_processorDir hn] at hd
    exact ⟨n, hn, rfl, (Option.some.inj hd).symm⟩
  · rw [ofName?_of_isOther hother] at hd
    cases hd

theorem compareNames_processorDir (m n : Nat) :
    NaturalOrder.compareNames (processorDir m) (processorDir n) = compare m n :=
  NaturalOrder.compareNames_numbered
    (NaturalOrder.not_isDigit_of_eq_some (c := 'c') rfl (by decide)) m n

/-- The names that are looked at, in natural order. -/
def candidates (names : List String) : List String :=
  NaturalOrder.sort (names.filter fun n => (suffix? n).isSome ∧ n ≠ "proc_bounds.dat")

theorem discover_of_list (hlist : tree.list dir = .ok names) :
    discover tree dir = .ok ((candidates names).filterMap ofName?) := by
  rw [discover, hlist]
  rfl

theorem mem_candidates_iff : name ∈ candidates names ↔
    name ∈ names ∧ (suffix? name).isSome ∧ name ≠ "proc_bounds.dat" := by
  rw [candidates, NaturalOrder.sort, List.mem_mergeSort, List.mem_filter, decide_eq_true_eq]

theorem Lists.mem_candidates (h : Lists names numbers) (hn : n ∈ numbers) :
    processorDir n ∈ candidates names := by
  have hbounds : processorDir n ≠ "proc_bounds.dat" := RunRecipe.processorDir_ne (by decide) n
  rw [mem_candidates_iff, RunRecipe.LiesIn.suffix?_processorDir]
  exact ⟨h.mem_names n hn, rfl, hbounds⟩

/-- The directories stand in the order of their numbers. -/
theorem Lists.pairwise_candidates (h : Lists names numbers) (hnodup : names.Nodup) :
    ((candidates names).filterMap ofName?).Pairwise fun d d' =>
      ∃ m n, d = numbered m ∧ d' = numbered n ∧ m < n := by
  have hsorted := NaturalOrder.pairwise_sort
    (names.filter fun n => (suffix? n).isSome ∧ n ≠ "proc_bounds.dat")
  have hdistinct : (candidates names).Nodup :=
    (List.mergeSort_perm _ _).nodup_iff.mpr (hnodup.filter _)
  rw [List.pairwise_filterMap]
  refine (hsorted.and hdistinct).imp_of_mem ?_
  rintro name name' hname hname' ⟨hle, hne⟩ d hd d' hd'
  obtain ⟨m, -, rfl, rfl⟩ := h.of_ofName? (mem_candidates_iff.mp hname).1 hd
  obtain ⟨n, -, rfl, rfl⟩ := h.of_ofName? (mem_candidates_iff.mp hname').1 hd'
  rw [compareNames_processorDir, Nat.isLE_compare] at hle
  exact ⟨m, n, rfl, rfl, Nat.lt_of_le_of_ne hle fun heq => hne (congrArg processorDir heq)⟩

/-- The directories of the processors are found, in strictly increasing order of their numbers. -/
theorem Lists.discover (h : Lists names numbers) (hlist : tree.list dir = .ok names) :
    ∃ ns : List Nat, discover tree dir = .ok (ns.map numbered) ∧ ns.Pairwise (· < ·) ∧
      ∀ n, n ∈ ns ↔ n ∈ numbers := by
  let dirs := (candidates names).filterMap ofName?
  have hmem : ∀ d ∈ dirs, ∃ n ∈ numbers, d = numbered n := by
    intro d hd
    obtain ⟨name, hname, hd⟩ := List.mem_filterMap.mp hd
    obtain ⟨n, hn, -, rfl⟩ := h.of_ofName? (mem_candidates_iff.mp hname).1 hd
    exact ⟨n, hn, rfl⟩
  have hpairwise := h.pairwise_candidates (FileTree.nodup_list hlist)
  have hdirs : (dirs.map fun d => d.processor.getD 0).map numbered = dirs := by
    rw [List.map_map]
    refine (List.map_congr_left fun d hd => ?_).trans (List.map_id _)
    obtain ⟨n, -, rfl⟩ := hmem d hd
    rfl
  refine ⟨dirs.map fun d => d.processor.getD 0, ?_, ?_, ?_⟩
  · rw [discover_of_list hlist, hdirs]
  · rw [List.pairwise_map]
    refine hpairwise.imp ?_
    rintro _ _ ⟨m, n, rfl, rfl, hlt⟩
    exact hlt
  · intro n
    rw [List.mem_map]
    constructor
    · rintro ⟨d, hd, rfl⟩
      obtain ⟨n, hn, rfl⟩ := hmem d hd
      exact hn
    · intro hn
      have hfound := List.mem_filterMap.mpr
        ⟨_, h.mem_candidates hn, h.ofName?_processorDir hn⟩
      exact ⟨numbered n, hfound, rfl⟩

end SnapshotDir

namespace NaturalOrder

open RunRecipe (textBytes)
open SnapshotDir (Lists IsOther)

/-- The natural order is a total one of all names, whose chunks are cut between characters. It is
the order of the values where names differ in one number, so sorting has one result, and the
directories of processors are found in strictly increasing order of their numbers. -/
theorem order_names_and_processors :
    IsTotal compareNames ∧
    (∀ name : String, chunks name.toList = (runs name.toList).map .ofRun ∧
      (textBytes name).splitBy sameByteKind =
        (runs name.toList).map fun run => textBytes (String.ofList run)) ∧
    (∀ p r r' s : String, (∀ c ∈ p.toList.getLast?, ¬ c.isDigit) →
      (∀ c ∈ s.toList.head?, ¬ c.isDigit) → IsDigits r.toList → IsDigits r'.toList →
      value r.toList ≠ value r'.toList →
      compareNames (p ++ r ++ s) (p ++ r' ++ s) = compare (value r.toList) (value r'.toList)) ∧
    (∀ xs ys : List String, xs.Perm ys → sort xs = sort ys) ∧
    ∀ (tree : FileTree) (dir : Path) (names : List String) (numbers : Finset Nat),
      tree.list dir = .ok names → Lists names numbers →
      ∃ ns : List Nat, SnapshotDir.discover tree dir = .ok (ns.map .numbered) ∧
        ns.Pairwise (· < ·) ∧ ∀ n, n ∈ ns ↔ n ∈ numbers :=
  ⟨isTotal_compareNames, fun name => ⟨chunks_eq _, runs_textBytes name⟩,
    fun _ _ _ _ hp hs hr hr' hne => compareNames_run hp hs hr hr' hne,
    fun _ _ h => sort_eq_of_perm h, fun _ _ _ _ hlist h => h.discover hlist⟩

/-- Directories of two processors among other things. -/
def scatteredRun : FileTree := .ofList
  [(["run"], .directory),
   (["run", "proc10"], .directory),
   (["run", "proc_bounds.dat"], .file []),
   (["run", "process"], .directory),
   (["run", "var.dat"], .file []),
   (["run", "proc9"], .directory)]

theorem lists_scatteredRun :
    Lists ["proc10", "proc_bounds.dat", "process", "var.dat", "proc9"] {9, 10} where
  lt_of_mem := by decide
  mem_names := by decide
  other name hname := by
    simp only [List.mem_cons, List.not_mem_nil, or_false] at hname
    rcases hname with rfl | rfl | rfl | rfl | rfl
    · exact .inl ⟨10, by decide, rfl⟩
    · refine .inr fun rest hrest => ?_
      cases hrest
      exact ⟨'_', "bounds.dat".toList, rfl, by decide, by decide⟩
    · refine .inr fun rest hrest => ?_
      cases hrest
      exact ⟨'e', "ss".toList, rfl, by decide, by decide⟩
    · exact .inr fun rest hrest => nomatch hrest
    · exact .inl ⟨9, by decide, rfl⟩

theorem order_names_and_processors_scatteredRun :
    compareNames "out9.dat" "out10.dat" = .lt ∧
    ∃ ns : List Nat, SnapshotDir.discover scatteredRun ⟨"run"⟩ = .ok (ns.map .numbered) ∧
      ns.Pairwise (· < ·) ∧ ∀ n, n ∈ ns ↔ n ∈ ({9, 10} : Finset Nat) := by
  obtain ⟨-, -, hrun, -, hdiscover⟩ := order_names_and_processors
  constructor
  · have hp : ∀ c ∈ "out".toList.getLast?, ¬ c.isDigit :=
      not_isDigit_of_eq_some (c := 't') rfl (by decide)
    have hs : ∀ c ∈ ".dat".toList.head?, ¬ c.isDigit :=
      not_isDigit_of_eq_some (c := '.') rfl (by decide)
    have hnine : IsDigits "9".toList := ⟨List.cons_ne_nil _ _, List.all_eq_true.mp rfl⟩
    have hten : IsDigits "10".toList := ⟨List.cons_ne_nil _ _, List.all_eq_true.mp rfl⟩
    exact hrun "out" "9" "10" ".dat" hp hs hnine hten (by decide)
  · exact hdiscover scatteredRun ⟨"run"⟩ _ _ rfl lists_scatteredRun

end NaturalOrder

end GridSnapshot
