import Specimen.Proofs.Loading.Fields
import Specimen.Proofs.Reflection.Members

/-! Names that classes give, each at its first place. What two ways of naming add to what has been gathered before
decides whether they gather the same. -/
namespace Specimen.World
variable {names more : List Text} {keep : Text → Bool} {classes : List ClassRef} {name : Text}

section Added

theorem filter_foldl_addName (keep : Text → Bool) (more names : List Text) :
    (more.foldl addName names).filter keep = (more.filter keep).foldl addName (names.filter keep) := by
  induction more generalizing names with
  | nil => rfl
  | cons name rest ih =>
    rw [List.foldl_cons, ih]
    by_cases kept : keep name = true
    · rw [List.filter_cons_of_pos kept, List.foldl_cons]
      congr 1
      by_cases old : name ∈ names <;> simp [addName, old, kept]
    · rw [List.filter_cons_of_neg kept]
      congr 1
      by_cases old : name ∈ names <;> simp [addName, old, kept]

/-- Names that are there already add nothing. -/
theorem foldl_addName_of_subset (h : ∀ name ∈ more, name ∈ names) : more.foldl addName names = names := by
  induction more with
  | nil => rfl
  | cons name rest ih =>
    obtain ⟨first, others⟩ := List.forall_mem_cons.mp h
    rw [List.foldl_cons, addName, if_pos (List.contains_iff_mem.mpr first)]
    exact ih others

/-- Only names that are new are added. -/
private theorem foldl_addName_eq (more names : List Text) :
    more.foldl addName names = names ++ (more.filter (· ∉ names)).foldl addName [] := by
  induction more using List.reverseRecOn with
  | nil => simp
  | append_singleton rest name ih =>
    rw [List.foldl_append, ih, List.filter_append, List.foldl_append]
    generalize (rest.filter (· ∉ names)).foldl addName [] = added
    by_cases old : name ∈ names
    · simp [addName, old]
    · by_cases again : name ∈ added <;> simp [addName, old, again]

theorem foldl_addName_of_nodup (h : more.Nodup) : more.foldl addName [] = more := by
  induction more using List.reverseRecOn with
  | nil => rfl
  | append_singleton rest name ih =>
    have fresh : name ∉ rest := fun again => List.disjoint_of_nodup_append h again (List.mem_singleton_self name)
    rw [List.foldl_append, ih (h.sublist (List.sublist_append_left _ _))]
    simp [addName, fresh]

/-- Adding names twice adds them once. -/
theorem foldl_addName_twice (more names : List Text) :
    (more.foldl addName names).foldl addName names = more.foldl addName names := by
  have old : names.filter (· ∉ names) = [] := List.filter_eq_nil_iff.mpr fun name hn => by simpa using hn
  rw [foldl_addName_eq (more.foldl addName names), filter_foldl_addName, old,
    foldl_addName_of_nodup (nodup_foldl_addName _ List.nodup_nil), ← foldl_addName_eq]

/-- What is in a part of a list without repetitions is that part. -/
theorem filter_mem_of_sublist {α : Type} [BEq α] [LawfulBEq α] {part whole : List α} (h : part.Sublist whole)
    (nodup : whole.Nodup) : whole.filter (· ∈ part) = part := by
  induction h with
  | slnil => rfl
  | cons a h ih =>
    obtain ⟨apart, nodup⟩ := List.nodup_cons.mp nodup
    rw [List.filter_cons_of_neg (by simpa using fun ha => apart (h.subset ha)), ih nodup]
  | cons_cons a h ih =>
    obtain ⟨apart, nodup⟩ := List.nodup_cons.mp nodup
    rw [List.filter_cons_of_pos (by simp)]
    refine congrArg (a :: ·) ((List.filter_congr fun b hb => ?_).trans (ih nodup))
    have : b ≠ a := fun same => apart (same ▸ hb)
    simp [this]

end Added

section Gathered
variable {left right : ClassRef → List Text}

theorem mem_gather : name ∈ gather left classes ↔ ∃ k ∈ classes, name ∈ left k := by
  simp [gather, mem_foldl_addName]

theorem nodup_gather (names : ClassRef → List Text) (classes : List ClassRef) : (gather names classes).Nodup :=
  nodup_foldl_addName _ List.nodup_nil

theorem gather_concat (names : ClassRef → List Text) (classes : List ClassRef) (k : ClassRef) :
    gather names (classes ++ [k]) = (names k).foldl addName (gather names classes) := by
  rw [gather, gather, List.flatMap_append, List.foldl_append, List.flatMap_singleton]

/-- What is gathered from some of several classes is gathered from all where the others give no names. -/
theorem gather_filter (names : ClassRef → List Text) (chosen : ClassRef → Bool) (classes : List ClassRef) :
    gather names (classes.filter chosen) = gather (fun k => if chosen k then names k else []) classes := by
  have same : (classes.filter chosen).flatMap names = classes.flatMap fun k => if chosen k then names k else [] := by
    induction classes with
    | nil => rfl
    | cons k rest ih => cases h : chosen k <;> simp [h, ih]
  rw [gather, gather, same]

private theorem filter_gather_concat (names : ClassRef → List Text) (keep : Text → Bool) (classes : List ClassRef)
    (k : ClassRef) : (gather names (classes ++ [k])).filter keep = (gather names classes).filter keep ++
      ((names k).filter fun name => keep name && name ∉ gather names classes).foldl addName [] := by
  rw [gather_concat, foldl_addName_eq, List.filter_append, filter_foldl_addName, List.filter_filter, List.filter_nil]

/-- Two ways of naming gather the same where they add the same, class by class. -/
theorem filter_gather_congr (h : ∀ before k after, classes = before ++ k :: after →
      ((left k).filter fun name => keep name && name ∉ gather left before).foldl addName [] =
        ((right k).filter fun name => keep name && name ∉ gather left before).foldl addName []) :
    (gather left classes).filter keep = (gather right classes).filter keep := by
  suffices ∀ before after, classes = before ++ after →
      (gather left before).filter keep = (gather right before).filter keep from
    this classes [] (List.append_nil _).symm
  intro before
  induction before using List.reverseRecOn with
  | nil => exact fun _ _ => rfl
  | append_singleton before k ih =>
    intro after whole
    have whole : classes = before ++ k :: after := by simpa using whole
    have known (name : Text) (kept : keep name = true) :
        name ∈ gather right before ↔ name ∈ gather left before := by
      have same := congrArg (name ∈ ·) (ih _ whole)
      simpa [kept] using same.symm
    have added : ((right k).filter fun name => keep name && name ∉ gather right before) =
        (right k).filter fun name => keep name && name ∉ gather left before :=
      List.filter_congr fun name _ => by
        cases kept : keep name with
        | false => rfl
        | true => simp only [known name kept]
    rw [filter_gather_concat, filter_gather_concat, ih _ whole, added, h before k after whole]

end Gathered

end Specimen.World
