import Specimen.Proofs.Schema.Layers
import Mathlib.Data.List.Nodup
import Mathlib.Data.List.Perm.Subperm

/-! Walks over a graph in layers. From any names a walk lists records after all that they lead to; where
the records stand in the order in which references first reach them, it lists them in this order. -/
namespace Specimen.TypeGraph

/-- The visited names are those of the listed records and those whose visit has not ended. -/
def Walk.Marks (walk : Walk) (pending : List Text) : Prop :=
  ∀ name, name ∈ walk.visited ↔ name ∈ walk.ordered.map (·.name) ∨ name ∈ pending

theorem Walk.Marks.entered {walk : Walk} {pending : List Text} (h : walk.Marks pending) (name : Text) :
    Walk.Marks ⟨name :: walk.visited, walk.ordered⟩ (name :: pending) := by
  intro other
  rw [List.mem_cons, h other, List.mem_cons]
  exact or_left_comm

/-- A record is listed at the end of its visit. -/
theorem Walk.Marks.listed {walk : Walk} {pending : List Text} {record : RecordType}
    (h : walk.Marks (record.name :: pending)) :
    Walk.Marks ⟨walk.visited, walk.ordered ++ [record]⟩ pending := by
  intro other
  rw [h other, List.map_append, List.map_singleton, List.mem_append, List.mem_singleton,
    List.mem_cons]
  exact or_assoc.symm

section Visit
variable {graph : TypeGraph}

theorem visit_of_visited (fuel : Nat) {name : Text} {walk : Walk} (h : name ∈ walk.visited) :
    graph.visit fuel name walk = .ok walk := by
  cases fuel with
  | zero => rfl
  | succ fuel => rw [visit, if_pos (List.contains_iff_mem.mpr h)]

private theorem visitEach_append {step : Text → Walk → Except GraphFault Walk} (names others : List Text)
    (walk : Walk) :
    visitEach step (names ++ others) walk = visitEach step names walk >>= visitEach step others := by
  induction names generalizing walk with
  | nil => rfl
  | cons name rest ih =>
    rw [List.cons_append, visitEach, visitEach]
    cases step name walk with
    | error _ => rfl
    | ok after => exact ih after

private theorem visitEach_of_visited (fuel : Nat) {names : List Text} {walk : Walk}
    (h : ∀ name ∈ names, name ∈ walk.visited) :
    visitEach (graph.visit fuel) names walk = .ok walk := by
  induction names with
  | nil => rfl
  | cons name rest ih =>
    rw [visitEach, visit_of_visited fuel (h name List.mem_cons_self)]
    exact ih fun other ho => h other (List.mem_cons_of_mem name ho)

private theorem visitEach_zero (names : List Text) (walk : Walk) :
    visitEach (graph.visit 0) names walk = .ok walk := by
  induction names with
  | nil => rfl
  | cons name rest ih =>
    rw [visitEach, visit]
    exact ih

private theorem visitEach_keeps {step : Text → Walk → Except GraphFault Walk}
    (keeps : ∀ name walk after, step name walk = .ok after → walk.visited ⊆ after.visited)
    {names : List Text} {walk after : Walk} (h : visitEach step names walk = .ok after) :
    walk.visited ⊆ after.visited := by
  induction names generalizing walk with
  | nil =>
    cases h
    exact List.Subset.refl _
  | cons name rest ih =>
    rw [visitEach] at h
    cases hs : step name walk with
    | error fault =>
      rw [hs] at h
      cases h
    | ok inner =>
      rw [hs] at h
      exact List.Subset.trans (keeps name walk inner hs) (ih h)

/-- A visit keeps what was visited, and marks the name. -/
private theorem visit_marks : ∀ (fuel : Nat) (name : Text) (walk after : Walk),
    graph.visit fuel name walk = .ok after →
      walk.visited ⊆ after.visited ∧ (fuel ≠ 0 → name ∈ after.visited)
  | 0, name, walk, after, h => by
    cases h
    exact ⟨List.Subset.refl _, fun hz => absurd rfl hz⟩
  | fuel + 1, name, walk, after, h => by
    rw [visit] at h
    split at h
    · rename_i hv
      cases h
      exact ⟨List.Subset.refl _, fun _ => List.contains_iff_mem.mp hv⟩
    · cases hr : graph.resolve name with
      | error fault =>
        rw [hr] at h
        cases h
      | ok record =>
        rw [hr] at h
        cases hw : visitEach (graph.visit fuel) record.dependencies
            ⟨name :: walk.visited, walk.ordered⟩ with
        | error fault =>
          simp only [bind, Except.bind, hw] at h
          cases h
        | ok inner =>
          simp only [bind, Except.bind, hw] at h
          cases h
          have hsub := visitEach_keeps (fun n w a ha => (visit_marks fuel n w a ha).1) hw
          exact ⟨fun n hn => hsub (List.mem_cons_of_mem name hn), fun _ => hsub List.mem_cons_self⟩

private theorem visitEach_addNew (fuel : Nat) (names seen : List Text) :
    ∃ more, names.foldl RecordType.addNew seen = seen ++ more ∧
      ∀ walk : Walk, (∀ name ∈ seen, name ∈ walk.visited) →
        visitEach (graph.visit (fuel + 1)) more walk = visitEach (graph.visit (fuel + 1)) names walk := by
  induction names generalizing seen with
  | nil => exact ⟨[], (List.append_nil seen).symm, fun _ _ => rfl⟩
  | cons name rest ih =>
    rw [List.foldl_cons, RecordType.addNew]
    split
    · rename_i hc
      obtain ⟨more, hmore, hsame⟩ := ih seen
      refine ⟨more, hmore, fun walk hs => ?_⟩
      -- a name that was seen is visited already, and visiting it again is a step that does nothing
      rw [visitEach, visit_of_visited _ (hs name (List.contains_iff_mem.mp hc))]
      exact hsame walk hs
    · obtain ⟨more, hmore, hsame⟩ := ih (seen ++ [name])
      refine ⟨name :: more, by rw [hmore, List.append_assoc]; rfl, fun walk hs => ?_⟩
      rw [visitEach, visitEach]
      cases hv : graph.visit (fuel + 1) name walk with
      | error fault => rfl
      | ok after =>
        obtain ⟨hsub, hin⟩ := visit_marks (fuel + 1) name walk after hv
        refine hsame after fun other ho => ?_
        rcases List.mem_append.mp ho with ho | ho
        · exact hsub (hs other ho)
        · exact List.mem_singleton.mp ho ▸ hin (Nat.succ_ne_zero fuel)

/-- That a walk meets each dependency once makes no difference: a second visit does nothing. -/
private theorem visitEach_dependencies (fuel : Nat) (record : RecordType) (walk : Walk) :
    visitEach (graph.visit fuel) record.dependencies walk =
      visitEach (graph.visit fuel) (targetsOf record.fields) walk := by
  cases fuel with
  | zero => rw [visitEach_zero, visitEach_zero]
  | succ fuel =>
    obtain ⟨more, hmore, hsame⟩ := @visitEach_addNew graph fuel (targetsOf record.fields) []
    rw [RecordType.dependencies, ← targetsOf, hmore]
    exact hsame walk (by simp)

/-- The visit of a new name lists its record behind what its fields lead to. -/
private theorem visit_of_fresh {fuel : Nat} {name : Text} {record : RecordType} {walk inner : Walk}
    (fresh : name ∉ walk.visited) (found : graph.find? name = some record)
    (h : visitEach (graph.visit fuel) (targetsOf record.fields) ⟨name :: walk.visited, walk.ordered⟩ =
      .ok inner) :
    graph.visit (fuel + 1) name walk = .ok ⟨inner.visited, inner.ordered ++ [record]⟩ := by
  rw [visit, if_neg (by simpa using fresh), resolve, found]
  simp only [bind, Except.bind, visitEach_dependencies, h]
  rfl

end Visit

section Layers
variable {graph : TypeGraph}

/-- What holds of a walk between visits: it has listed records in layers, and none that is pending. -/
private structure Walk.Stands (graph : TypeGraph) (walk : Walk) (pending : List Text) : Prop where
  layered : Layered walk.ordered
  subset : walk.ordered ⊆ graph.records
  marks : walk.Marks pending
  apart : ∀ record ∈ walk.ordered, record.name ∉ pending

/-- The place of a name among the records. -/
private def place (graph : TypeGraph) (name : Text) : Nat := (graph.records.map (·.name)).idxOf name

private theorem visitEach_stands {fuel : Nat} {pending : List Text}
    (each : ∀ (name : Text) (walk : Walk), name ∈ graph.records.map (·.name) →
      place graph name < fuel → (∀ other ∈ pending, place graph name < place graph other) →
      walk.Stands graph pending → ∃ after, graph.visit fuel name walk = .ok after ∧
        after.Stands graph pending ∧ walk.ordered ⊆ after.ordered ∧
        name ∈ after.ordered.map (·.name))
    {names : List Text} {walk : Walk} (stands : walk.Stands graph pending)
    (known : ∀ name ∈ names, name ∈ graph.records.map (·.name))
    (low : ∀ name ∈ names, place graph name < fuel)
    (below : ∀ name ∈ names, ∀ other ∈ pending, place graph name < place graph other) :
    ∃ after, visitEach (graph.visit fuel) names walk = .ok after ∧ after.Stands graph pending ∧
      walk.ordered ⊆ after.ordered ∧ ∀ name ∈ names, name ∈ after.ordered.map (·.name) := by
  induction names generalizing walk with
  | nil => exact ⟨walk, rfl, stands, List.Subset.refl _, by simp⟩
  | cons name rest ih =>
    obtain ⟨inner, hv, hs, hsub, hin⟩ := each name walk (known name List.mem_cons_self)
      (low name List.mem_cons_self) (below name List.mem_cons_self) stands
    obtain ⟨after, hr, hs', hsub', hin'⟩ := ih hs
      (fun other ho => known other (List.mem_cons_of_mem name ho))
      (fun other ho => low other (List.mem_cons_of_mem name ho))
      (fun other ho => below other (List.mem_cons_of_mem name ho))
    refine ⟨after, by rw [visitEach, hv]; exact hr, hs', List.Subset.trans hsub hsub', fun other ho => ?_⟩
    rcases List.mem_cons.mp ho with rfl | ho
    · exact List.map_subset _ hsub' hin
    · exact hin' other ho

variable (layered : Layered graph.records)
include layered

private theorem visit_stands (fuel : Nat) : ∀ (pending : List Text) (name : Text) (walk : Walk),
    name ∈ graph.records.map (·.name) → place graph name < fuel →
    (∀ other ∈ pending, place graph name < place graph other) → walk.Stands graph pending →
    ∃ after, graph.visit fuel name walk = .ok after ∧ after.Stands graph pending ∧
      walk.ordered ⊆ after.ordered ∧ name ∈ after.ordered.map (·.name) := by
  -- targets stand in lower places, so the place of a name bounds the depth of its visit
  induction fuel with
  | zero => exact fun _ _ _ _ low => absurd low (Nat.not_lt_zero _)
  | succ fuel ih =>
    intro pending name walk known low below stands
    have hout : name ∉ pending := fun hp => Nat.lt_irrefl _ (below name hp)
    by_cases hv : name ∈ walk.visited
    · refine ⟨walk, visit_of_visited _ hv, stands, List.Subset.refl _, ?_⟩
      exact ((stands.marks name).mp hv).resolve_right hout
    · obtain ⟨record, hr, rfl⟩ := List.mem_map.mp known
      have lower : ∀ other ∈ targetsOf record.fields, place graph other < place graph record.name :=
        fun other ho => layered.idxOf_lt hr ho
      have entered : Walk.Stands graph ⟨record.name :: walk.visited, walk.ordered⟩
          (record.name :: pending) := by
        refine ⟨stands.layered, stands.subset, stands.marks.entered _, fun other ho hin => ?_⟩
        rcases List.mem_cons.mp hin with he | hin
        · exact hv ((stands.marks _).mpr (.inl (he ▸ List.mem_map_of_mem ho)))
        · exact stands.apart other ho hin
      obtain ⟨inner, hi, hs, hsub, hin⟩ := visitEach_stands (ih (record.name :: pending))
        entered (fun other ho => layered.closed hr ho)
        (fun other ho => (lower other ho).trans_le (Nat.lt_succ_iff.mp low))
        (fun other ho third ht => by
          rcases List.mem_cons.mp ht with rfl | ht
          · exact lower other ho
          · exact (lower other ho).trans (below third ht))
      have fresh : record.name ∉ inner.ordered.map (·.name) := fun hf => by
        obtain ⟨other, ho, he⟩ := List.mem_map.mp hf
        exact hs.apart other ho (he ▸ List.mem_cons_self)
      refine ⟨_, visit_of_fresh hv (find?_of_mem layered.nodup hr) hi, ⟨?_, ?_, ?_, ?_⟩, ?_, ?_⟩
      · exact .snoc hs.layered fresh hin
      · exact List.append_subset.mpr ⟨hs.subset, by simpa using hr⟩
      · exact Walk.Marks.listed hs.marks
      · intro other ho
        rcases List.mem_append.mp ho with ho | ho
        · exact fun hp => hs.apart other ho (List.mem_cons_of_mem _ hp)
        · exact List.mem_singleton.mp ho ▸ hout
      · exact List.Subset.trans hsub (List.subset_append_left _ _)
      · simp

/-- The dependency order of a graph in layers has all its records, in layers. -/
theorem dependencyOrder_layered (root : graph.rootName ∈ graph.records.map (·.name)) :
    ∃ order, graph.dependencyOrder = .ok order ∧ order.Perm graph.records ∧ Layered order := by
  have begin : Walk.Stands graph ⟨[], []⟩ [] := ⟨.nil, by simp, by simp [Walk.Marks], by simp⟩
  have known : ∀ name ∈ graph.rootName :: graph.records.map (·.name),
      name ∈ graph.records.map (·.name) := by
    intro name hn
    rcases List.mem_cons.mp hn with rfl | hn
    · exact root
    · exact hn
  obtain ⟨after, hw, hs, -, hin⟩ := visitEach_stands
    (visit_stands layered (graph.records.length + 1) []) begin known
    (fun name hn => by
      have := List.idxOf_lt_length_of_mem (known name hn)
      rw [List.length_map] at this
      exact this.trans (Nat.lt_succ_self _))
    (by simp)
  refine ⟨after.ordered, by simp only [dependencyOrder, hw, bind, Except.bind]; rfl, ?_, hs.layered⟩
  refine (List.perm_ext_iff_of_nodup (.of_map _ hs.layered.nodup)
    (.of_map _ layered.nodup)).mpr fun record =>
    ⟨fun hr => hs.subset hr, fun hr => ?_⟩
  obtain ⟨other, ho, he⟩ :=
    List.mem_map.mp (hin record.name (List.mem_cons_of_mem _ (List.mem_map_of_mem hr)))
  exact List.inj_on_of_nodup_map layered.nodup (hs.subset ho) hr he ▸ ho

end Layers

section Cover
variable {graph : TypeGraph} {before middle after : List RecordType}

/-- Visiting names takes a walk that has listed some records to one that has listed more, and references
lead from the names to each record listed on the way. -/
structure Covers (graph : TypeGraph) (before after : List RecordType) (names : List Text) : Prop where
  reached : ∀ record ∈ after, record ∈ before ∨ ∃ name ∈ names, graph.Leads name record.name
  walked : ∀ (fuel : Nat) (pending : List Text) (walk : Walk), after.length ≤ fuel →
    walk.ordered = before → walk.Marks pending → (∀ record ∈ after, record.name ∉ pending) →
    ∃ done, visitEach (graph.visit fuel) names walk = .ok done ∧ done.ordered = after ∧
      done.Marks pending

theorem Covers.refl (graph : TypeGraph) (records : List RecordType) :
    graph.Covers records records [] where
  reached _ hr := .inl hr
  walked _ _ walk _ ordered marks _ := ⟨walk, rfl, ordered, marks⟩

theorem Covers.trans {names others : List Text} (h : graph.Covers before middle names)
    (h' : graph.Covers middle after others) (more : middle <+: after) :
    graph.Covers before after (names ++ others) where
  reached record hr := by
    rcases h'.reached record hr with hm | ⟨name, hn, leads⟩
    · rcases h.reached record hm with hb | ⟨name, hn, leads⟩
      · exact .inl hb
      · exact .inr ⟨name, List.mem_append_left _ hn, leads⟩
    · exact .inr ⟨name, List.mem_append_right _ hn, leads⟩
  walked fuel pending walk bound ordered marks apart := by
    obtain ⟨inner, hi, ordered', marks'⟩ := h.walked fuel pending walk
      (more.length_le.trans bound) ordered marks fun record hr => apart record (more.subset hr)
    obtain ⟨done, hd, result⟩ := h'.walked fuel pending inner bound ordered' marks' apart
    refine ⟨done, ?_, result⟩
    rw [visitEach_append, hi]
    exact hd

/-- A new record behind those that its fields cover is covered by its name. -/
theorem Covers.added {record : RecordType} (h : graph.Covers before middle (targetsOf record.fields))
    (more : before <+: middle) (found : graph.find? record.name = some record)
    (fresh : record.name ∉ middle.map (·.name)) :
    graph.Covers before (middle ++ [record]) [record.name] where
  reached other ho := by
    refine (List.mem_append.mp ho).elim (fun hm => (h.reached other hm).imp_right ?_) fun hl => ?_
    · rintro ⟨name, hn, leads⟩
      obtain ⟨field, hf, ht⟩ := mem_targetsOf.mp hn
      exact ⟨record.name, List.mem_singleton_self _, .head ⟨record, found, field, hf, ht⟩ leads⟩
    · exact .inr ⟨record.name, List.mem_singleton_self _, List.mem_singleton.mp hl ▸ .refl⟩
  walked fuel pending walk bound ordered marks apart := by
    have out : record.name ∉ pending := apart record (by simp)
    have unvisited : record.name ∉ walk.visited := fun hv => by
      rcases (marks _).mp hv with hb | hp
      · rw [ordered] at hb
        exact fresh (List.map_subset _ more.subset hb)
      · exact out hp
    rw [List.length_append, List.length_singleton] at bound
    obtain ⟨fuel, rfl⟩ := Nat.exists_eq_add_of_le' ((Nat.le_add_left 1 _).trans bound)
    obtain ⟨inner, hi, ordered', marks'⟩ := h.walked fuel (record.name :: pending)
      ⟨record.name :: walk.visited, walk.ordered⟩ (Nat.le_of_succ_le_succ bound) ordered
      (marks.entered _) fun other ho hin => by
        rcases List.mem_cons.mp hin with he | hin
        · exact fresh (he ▸ List.mem_map_of_mem ho)
        · exact apart other (List.mem_append_left _ ho) hin
    refine ⟨_, ?_, by rw [ordered'], Walk.Marks.listed marks'⟩
    rw [visitEach, visit_of_fresh unvisited found hi]
    rfl

/-- Fields of a record that is there already cover no new records: these would lead to themselves. -/
theorem Covers.shared (layered : Layered graph.records) {fields : List Field}
    (h : graph.Covers before after (targetsOf fields)) (more : before <+: after)
    (within : after <+: graph.records) {record : RecordType} (hr : record ∈ after)
    (same : ∀ field, field ∈ record.fields ↔ field ∈ fields) :
    graph.Covers before after [record.name] := by
  have found := find?_of_mem layered.nodup (within.subset hr)
  have refers : ∀ name ∈ targetsOf fields, graph.Refers record.name name := by
    intro name hn
    obtain ⟨field, hf, ht⟩ := mem_targetsOf.mp hn
    exact ⟨record, found, field, (same field).mpr hf, ht⟩
  -- listed on the way, the record would lead to itself through its fields
  have early : record ∈ before := by
    refine (h.reached record hr).resolve_right ?_
    rintro ⟨name, hn, leads⟩
    exact isAcyclic_of_layered layered record.name (.head' (refers name hn) leads)
  -- and what else was listed on the way stands before the record, hence among the earlier ones
  have none : after ⊆ before := by
    intro other ho
    rcases h.reached other ho with hb | ⟨name, hn, leads⟩
    · exact hb
    · have hin := Leads.mem_prefix layered (more.trans within) (.head (refers name hn) leads)
        (List.mem_map_of_mem early)
      obtain ⟨own, hown, he⟩ := List.mem_map.mp hin
      rwa [← List.inj_on_of_nodup_map layered.nodup (within.subset (more.subset hown))
        (within.subset ho) he]
  have nodup : after.Nodup := .of_map _ (layered.of_prefix within).nodup
  obtain rfl := more.eq_of_length_le (List.subperm_of_subset nodup none).length_le
  refine ⟨fun other ho => .inl ho, fun fuel pending walk _ ordered marks _ => ?_⟩
  refine ⟨walk, visitEach_of_visited fuel ?_, ordered, marks⟩
  intro name hn
  rw [List.mem_singleton.mp hn, marks, ordered]
  exact .inl (List.mem_map_of_mem early)

/-- The order of records that the root covers is theirs. -/
theorem Covers.dependencyOrder (h : graph.Covers [] graph.records [graph.rootName]) :
    graph.dependencyOrder = .ok graph.records := by
  obtain ⟨done, hd, ordered, marks⟩ := h.walked (graph.records.length + 1) [] ⟨[], []⟩
    (Nat.le_succ _) rfl (by simp [Walk.Marks]) (by simp)
  have rest : visitEach (graph.visit (graph.records.length + 1)) (graph.records.map (·.name)) done =
      .ok done := by
    refine visitEach_of_visited _ fun name hn => (marks name).mpr (.inl ?_)
    rwa [ordered]
  rw [TypeGraph.dependencyOrder, ← List.singleton_append, visitEach_append, hd]
  simp only [bind, Except.bind, rest]
  exact congrArg Except.ok ordered

end Cover

end Specimen.TypeGraph
