import Specimen.Proofs.Schema.Additions
import Specimen.Proofs.Schema.Validity
import Specimen.Proofs.Schema.Walk

/-! The order of the records of any graph. The walk that gives it needs no bound: it ends on every graph, fails exactly
on those that are not valid, and lists each record once, behind all that it refers to but what leads back to it. -/
namespace Specimen.TypeGraph

section Visits
variable {graph : TypeGraph}

/-- What a walk over names gives, however deep it goes: a name that was visited is passed over; any other is
marked, what its record refers to is walked over, and the record is listed. The walk fails at a name without a
record. -/
inductive Visits (graph : TypeGraph) : List Text → Walk → Except GraphFault Walk → Prop
  | done (walk : Walk) : Visits graph [] walk (.ok walk)
  | passed {name : Text} {rest : List Text} {walk : Walk} {result : Except GraphFault Walk}
    (visited : name ∈ walk.visited) (others : Visits graph rest walk result) :
    Visits graph (name :: rest) walk result
  | missed {name : Text} {walk : Walk} (rest : List Text) (new : name ∉ walk.visited)
    (missing : graph.find? name = none) : Visits graph (name :: rest) walk (.error (.unresolved name))
  | failed {name : Text} {walk : Walk} {record : RecordType} {fault : GraphFault} (rest : List Text)
    (new : name ∉ walk.visited) (found : graph.find? name = some record)
    (inside : Visits graph record.dependencies ⟨name :: walk.visited, walk.ordered⟩ (.error fault)) :
    Visits graph (name :: rest) walk (.error fault)
  | listed {name : Text} {rest : List Text} {walk inner : Walk} {record : RecordType}
    {result : Except GraphFault Walk} (new : name ∉ walk.visited) (found : graph.find? name = some record)
    (inside : Visits graph record.dependencies ⟨name :: walk.visited, walk.ordered⟩ (.ok inner))
    (others : Visits graph rest ⟨inner.visited, inner.ordered ++ [record]⟩ result) :
    Visits graph (name :: rest) walk result

/-- A walk has one result. -/
theorem Visits.unique {names : List Text} {walk : Walk} {result other : Except GraphFault Walk}
    (h : graph.Visits names walk result) (h' : graph.Visits names walk other) : result = other := by
  induction h generalizing other with
  | done => cases h'; rfl
  | passed visited _ ih =>
    cases h' with
    | passed _ others => exact ih others
    | missed _ new | failed _ new | listed new => exact absurd visited new
  | missed _ new missing =>
    cases h' with
    | passed visited => exact absurd visited new
    | missed => rfl
    | failed _ _ found | listed _ found => cases missing.symm.trans found
  | failed _ new found _ ih =>
    cases h' with
    | passed visited => exact absurd visited new
    | missed _ _ missing => cases missing.symm.trans found
    | failed _ _ found' inside => cases found.symm.trans found'; exact ih inside
    | listed _ found' inside => cases found.symm.trans found'; cases ih inside
  | listed new found _ _ ih ihRest =>
    cases h' with
    | passed visited => exact absurd visited new
    | missed _ _ missing => cases missing.symm.trans found
    | failed _ _ found' inside => cases found.symm.trans found'; cases ih inside
    | listed _ found' inside others =>
      cases found.symm.trans found'
      cases ih inside
      exact ihRest others

/-- A walk that ends has visited what was visited before, and the names. -/
theorem Visits.marks {names : List Text} {walk last : Walk} (h : graph.Visits names walk (.ok last)) :
    walk.visited ⊆ last.visited ∧ ∀ name ∈ names, name ∈ last.visited := by
  generalize hr : Except.ok last = result at h
  induction h generalizing last with
  | done => cases hr; exact ⟨List.Subset.refl _, nofun⟩
  | passed visited _ ih =>
    obtain ⟨kept, rest⟩ := ih hr
    exact ⟨kept, List.forall_mem_cons.mpr ⟨kept visited, rest⟩⟩
  | missed | failed => cases hr
  | listed _ _ _ _ ih ihRest =>
    obtain ⟨kept, -⟩ := ih rfl
    obtain ⟨keptRest, rest⟩ := ihRest hr
    have kept := List.Subset.trans kept keptRest
    exact ⟨fun other ho => kept (List.mem_cons_of_mem _ ho),
      List.forall_mem_cons.mpr ⟨kept List.mem_cons_self, rest⟩⟩

/-- The number of records that a walk has not visited. -/
def unvisited (graph : TypeGraph) (visited : List Text) : Nat :=
  graph.records.countP fun record => !visited.contains record.name

private theorem unvisited_anti {visited more : List Text} (h : visited ⊆ more) :
    graph.unvisited more ≤ graph.unvisited visited :=
  List.countP_mono_left fun record _ => by simpa using fun out hin => out (h hin)

private theorem unvisited_cons {name : Text} {record : RecordType} {visited : List Text} (new : name ∉ visited)
    (found : graph.find? name = some record) : graph.unvisited (name :: visited) < graph.unvisited visited := by
  obtain ⟨hr, rfl⟩ := mem_of_find? found
  obtain ⟨before, rest, hrecords⟩ := List.append_of_mem hr
  have fewer (records : List RecordType) : records.countP (fun other => !(record.name :: visited).contains other.name) ≤
      records.countP fun other => !visited.contains other.name :=
    List.countP_mono_left fun other _ => by simp +contextual
  have own : (!(record.name :: visited).contains record.name) = false := by simp
  have free : (!visited.contains record.name) = true := by simpa using new
  have hb := fewer before
  have hrest := fewer rest
  simp only [unvisited, hrecords, List.countP_append, List.countP_cons, own, free, Bool.false_eq_true, if_false,
    if_true]
  omega

/-- With more nesting allowed than there are records left, a bounded walk is the walk. -/
private theorem visits_visitEach (fuel : Nat) :
    ∀ (names : List Text) (walk : Walk), graph.unvisited walk.visited < fuel →
    graph.Visits names walk (visitEach (graph.visit fuel) names walk) := by
  induction fuel with
  | zero => exact fun _ _ h => absurd h (Nat.not_lt_zero _)
  | succ fuel ih =>
    intro names
    induction names with
    | nil => exact fun walk _ => .done walk
    | cons name rest ihRest =>
      intro walk bound
      by_cases visited : name ∈ walk.visited
      · rw [visitEach, visit_of_visited _ visited]
        exact .passed visited (ihRest walk bound)
      · rw [visitEach, visit, if_neg (by simpa using visited), resolve]
        cases found : graph.find? name with
        | none => exact .missed rest visited found
        | some record =>
          have fewer := unvisited_cons visited found
          have inside := ih record.dependencies ⟨name :: walk.visited, walk.ordered⟩ (by dsimp only; omega)
          simp only [bind, Except.bind]
          cases hinner : visitEach (graph.visit fuel) record.dependencies ⟨name :: walk.visited, walk.ordered⟩ with
          | error fault => exact .failed rest visited found (hinner ▸ inside)
          | ok inner =>
            rw [hinner] at inside
            have kept : graph.unvisited inner.visited ≤ graph.unvisited _ := unvisited_anti inside.marks.1
            exact .listed visited found inside (ihRest ⟨inner.visited, inner.ordered ++ [record]⟩ (by
              dsimp only at kept ⊢
              omega))

/-- The names at which the walk for the order begins. -/
def starts (graph : TypeGraph) : List Text := graph.rootName :: graph.records.map (·.name)

/-- The order of a graph is what the walk over its names lists. -/
private theorem visits_dependencyOrder (graph : TypeGraph) :
    ∃ result, graph.Visits graph.starts ⟨[], []⟩ result ∧ graph.dependencyOrder = result.map Walk.ordered := by
  have bound : graph.unvisited [] < graph.records.length + 1 := Nat.lt_succ_of_le List.countP_le_length
  refine ⟨_, visits_visitEach _ graph.starts ⟨[], []⟩ bound, ?_⟩
  rw [dependencyOrder, ← starts]
  cases visitEach (graph.visit (graph.records.length + 1)) graph.starts ⟨[], []⟩ <;> rfl

/-- Records in an order in which each is behind all that its fields lead to, but for what leads back to it. -/
inductive Follows (graph : TypeGraph) : List RecordType → Prop
  | nil : Follows graph []
  | snoc {records : List RecordType} {record : RecordType} (earlier : Follows graph records)
    (targets : ∀ name ∈ targetsOf record.fields, name ∈ records.map (·.name) ∨ graph.Leads name record.name) :
    Follows graph (records ++ [record])

private theorem Follows.targets_of_mem {records before rest : List RecordType} {record : RecordType}
    (h : graph.Follows records) (at' : records = before ++ record :: rest) {name : Text}
    (hn : name ∈ targetsOf record.fields) : name ∈ before.map (·.name) ∨ graph.Leads name record.name := by
  induction h generalizing rest with
  | nil => cases List.append_ne_nil_of_right_ne_nil before (List.cons_ne_nil record rest) at'.symm
  | snoc _ targets ih =>
    rcases List.eq_nil_or_concat rest with rfl | ⟨more, last, rfl⟩
    · obtain ⟨rfl, same⟩ := List.append_inj' at' rfl
      obtain rfl := List.singleton_inj.mp same
      exact targets name hn
    · exact ih (List.append_inj' (at'.trans (by simp) : _ = (before ++ record :: more) ++ [last]) rfl).1

/-- What holds of a walk while the visits of some names have not ended: its records are the graph's, and each was
listed once, at the end of its visit. -/
private structure Walk.Orders (graph : TypeGraph) (walk : Walk) (pending : List Text) : Prop where
  marks : walk.Marks pending
  found : ∀ record ∈ walk.ordered, graph.find? record.name = some record
  distinct : (walk.ordered.map (·.name)).Nodup
  apart : ∀ record ∈ walk.ordered, record.name ∉ pending
  follows : graph.Follows walk.ordered

private theorem Walk.Orders.entered {walk : Walk} {pending : List Text} {name : Text} (h : walk.Orders graph pending)
    (new : name ∉ walk.visited) : Walk.Orders graph ⟨name :: walk.visited, walk.ordered⟩ (name :: pending) where
  marks := h.marks.entered name
  found := h.found
  distinct := h.distinct
  apart record hr hp := by
    rcases List.mem_cons.mp hp with rfl | hp
    · exact new ((h.marks _).mpr (.inl (List.mem_map_of_mem hr)))
    · exact h.apart record hr hp
  follows := h.follows

private theorem Walk.Orders.listed {walk : Walk} {pending : List Text} {record : RecordType}
    (h : walk.Orders graph (record.name :: pending)) (out : record.name ∉ pending)
    (found : graph.find? record.name = some record)
    (targets : ∀ name ∈ targetsOf record.fields, name ∈ walk.visited)
    (leads : ∀ name ∈ pending, graph.Leads name record.name) :
    Walk.Orders graph ⟨walk.visited, walk.ordered ++ [record]⟩ pending where
  marks := h.marks.listed
  found := List.forall_mem_append.mpr ⟨h.found, List.forall_mem_singleton.mpr found⟩
  distinct := nodup_added h.distinct fun other ho same => h.apart other ho (same ▸ List.mem_cons_self)
  apart := List.forall_mem_append.mpr
    ⟨fun other ho hp => h.apart other ho (List.mem_cons_of_mem _ hp), List.forall_mem_singleton.mpr out⟩
  follows := h.follows.snoc fun name hn => by
    -- what the record leads to was visited; where its visit has not ended, it leads to the record
    rcases (h.marks name).mp (targets name hn) with listed | unfinished
    · exact .inl listed
    · rcases List.mem_cons.mp unfinished with rfl | unfinished
      · exact .inr .refl
      · exact .inr (leads name unfinished)

/-- A walk keeps the order, where the names whose visits have not ended lead to those it walks over. -/
private theorem Visits.orders {names pending : List Text} {walk last : Walk} (h : graph.Visits names walk (.ok last))
    (orders : walk.Orders graph pending) (leads : ∀ name ∈ names, ∀ other ∈ pending, graph.Leads other name) :
    last.Orders graph pending := by
  generalize hr : Except.ok last = result at h
  induction h generalizing last pending with
  | done => cases hr; exact orders
  | passed _ _ ih => exact ih orders (fun name hn => leads name (List.mem_cons_of_mem _ hn)) hr
  | missed | failed => cases hr
  | @listed name rest walk inner record result new found inside others ih ihRest =>
    obtain ⟨here, below⟩ := List.forall_mem_cons.mp leads
    obtain ⟨-, rfl⟩ := mem_of_find? found
    have refers : ∀ other ∈ record.dependencies, graph.Refers record.name other := fun other ho =>
      ⟨record, found, mem_dependencies.mp ho⟩
    have within := ih (orders.entered new) (fun other ho => List.forall_mem_cons.mpr
      ⟨.single (refers other ho), fun third ht => (here third ht).tail (refers other ho)⟩) rfl
    have out : record.name ∉ pending := fun hp => new ((orders.marks _).mpr (.inr hp))
    have inside : ∀ other ∈ targetsOf record.fields, other ∈ _ := fun other ho =>
      inside.marks.2 other (mem_dependencies.mpr (mem_targetsOf.mp ho))
    exact ihRest (within.listed out found inside here) below hr

/-- A walk over the graph's names that does not fail lists the graph's records, each once. -/
private theorem Visits.perm (distinct : (graph.records.map (·.name)).Nodup) {last : Walk}
    (h : graph.Visits graph.starts ⟨[], []⟩ (.ok last)) :
    last.ordered.Perm graph.records ∧ graph.rootName ∈ graph.records.map (·.name) ∧
      graph.Follows last.ordered := by
  have orders : last.Orders graph [] :=
    h.orders ⟨by simp [Walk.Marks], nofun, List.nodup_nil, nofun, .nil⟩ fun _ _ => nofun
  have listed : ∀ name ∈ graph.starts, name ∈ last.ordered.map (·.name) := fun name hn => by
    simpa using (orders.marks name).mp (h.marks.2 name hn)
  have within : ∀ record ∈ last.ordered, record ∈ graph.records := fun record hr =>
    (mem_of_find? (orders.found record hr)).1
  have perm : last.ordered.Perm graph.records := by
    refine (List.perm_ext_iff_of_nodup (.of_map _ orders.distinct) (.of_map _ distinct)).mpr fun record =>
      ⟨within record, fun hr => ?_⟩
    obtain ⟨other, ho, same⟩ := List.mem_map.mp (listed _ (List.mem_cons_of_mem _ (List.mem_map_of_mem hr)))
    exact List.inj_on_of_nodup_map distinct (within other ho) hr same ▸ ho
  exact ⟨perm, (perm.map _).mem_iff.mp (listed _ List.mem_cons_self), orders.follows⟩

/-- A graph whose records can be put in order holds what its fields lead to. -/
private theorem validate_of_follows (root : graph.rootName ∈ graph.records.map (·.name)) {order : List RecordType}
    (perm : order.Perm graph.records) (follows : graph.Follows order) : graph.validate = .ok () := by
  obtain ⟨record, found⟩ := Option.isSome_iff_exists.mp (contains_iff.mpr root)
  refine validate_ok found fun record hr field hf name target => ?_
  obtain ⟨before, rest, horder⟩ := List.append_of_mem (perm.mem_iff.mpr hr)
  have held : name ∈ graph.records.map (·.name) := by
    rcases follows.targets_of_mem horder (mem_targetsOf.mpr ⟨field, hf, target⟩) with earlier | back
    · exact (perm.map _).mem_iff.mp (horder ▸ List.map_subset _ (List.subset_append_left before _) earlier)
    · rcases back.cases_head with rfl | ⟨_, ⟨other, found, -⟩, -⟩
      · exact List.mem_map_of_mem hr
      · obtain ⟨ho, rfl⟩ := mem_of_find? found
        exact List.mem_map_of_mem ho
  exact Option.isSome_iff_exists.mp (contains_iff.mpr held)

/-- A graph of distinct names is valid and has an order, in which each record is behind all that its fields lead to but
what leads back to it; or it is not valid and has no order. -/
private theorem order_cases (distinct : (graph.records.map (·.name)).Nodup) :
    (∃ order, graph.validate = .ok () ∧ graph.dependencyOrder = .ok order ∧ order.Perm graph.records ∧
        (order.map (·.name)).Nodup ∧
        ∀ before record rest, order = before ++ record :: rest → ∀ field ∈ record.fields, ∀ name,
          field.type.innermost = .object name →
            name ∈ before.map (·.name) ∨ graph.Leads name record.name ∧ ¬ graph.IsAcyclic) ∨
      ∃ fault other, graph.validate = .error fault ∧ graph.dependencyOrder = .error other := by
  obtain ⟨result, visits, order⟩ := visits_dependencyOrder graph
  cases result with
  | ok last =>
    obtain ⟨perm, root, follows⟩ := visits.perm distinct
    refine .inl ⟨last.ordered, validate_of_follows root perm follows, order, perm,
      (perm.map _).nodup_iff.mpr distinct, fun before record rest at' field hf name target => ?_⟩
    have target : field.type.target? = some name := by rw [TypeRef.target?, target]
    refine (follows.targets_of_mem at' (mem_targetsOf.mpr ⟨field, hf, target⟩)).imp_right fun back =>
      ⟨back, fun acyclic => acyclic record.name (.head' ⟨record, ?_, field, hf, target⟩ back)⟩
    exact find?_of_mem distinct (perm.mem_iff.mp (at' ▸ List.mem_append_right before List.mem_cons_self))
  | error other =>
    -- a valid graph has an order, so this one is not valid
    cases hvalid : graph.validate with
    | ok _ =>
      obtain ⟨records, ordered⟩ := (isClosed_of_validate hvalid).exists_dependencyOrder
      cases order.symm.trans ordered
    | error fault => exact .inr ⟨fault, other, rfl, order⟩

end Visits

section Order

/-- Whatever is added, a record of a taken name is refused and changes nothing, so the first record of each name is
kept, and a fingerprint finds the earliest kept record that has it. The walk for the order of the records ends.
Either the graph is valid and the order lists each record once, behind all that its fields lead to, through arrays
too, but what leads back to it, or both the check and the order fail. -/
theorem addAll_order (rootName nameSpace : Text) (rootIsArray : Bool) (additions : List RecordType) :
    let registry := (Registry.empty rootName nameSpace rootIsArray).addAll additions
    let graph := registry.graph
    (∀ record, if record.name ∈ additions.map (·.name)
      then registry.add record = (.error (.duplicateName record.name), registry)
      else (registry.add record).1 = .ok () ∧
        (registry.add record).2.graph = { graph with records := graph.records ++ [record] }) ∧
    graph.records = firstOfEach additions ∧
    (∀ print, registry.find? print = .ok (graph.findFingerprint? print) ∧
      (graph.findFingerprint? print = none ↔ ∀ record ∈ graph.records, record.fingerprint ≠ print) ∧
      ∀ record, graph.findFingerprint? print = some record ↔ record.fingerprint = print ∧
        ∃ before rest, graph.records = before ++ record :: rest ∧ ∀ other ∈ before, other.fingerprint ≠ print) ∧
    (∃ result, (∀ other, graph.Visits graph.starts ⟨[], []⟩ other ↔ other = result) ∧
      graph.dependencyOrder = result.map Walk.ordered) ∧
    ((∃ order, graph.validate = .ok () ∧ graph.dependencyOrder = .ok order ∧ order.Perm graph.records ∧
        (order.map (·.name)).Nodup ∧
        ∀ before record rest, order = before ++ record :: rest → ∀ field ∈ record.fields, ∀ name,
          field.type.innermost = .object name →
            name ∈ before.map (·.name) ∨ graph.Leads name record.name ∧ ¬ graph.IsAcyclic) ∨
      ∃ fault other, graph.validate = .error fault ∧ graph.dependencyOrder = .error other) := by
  intro registry graph
  have records : graph.records = firstOfEach additions :=
    Registry.records_addAll_empty rootName nameSpace rootIsArray additions
  have distinct : (graph.records.map (·.name)).Nodup := records ▸ nodup_firstOfEach additions
  obtain ⟨result, visits, order⟩ := visits_dependencyOrder graph
  refine ⟨fun record => ?_, records, fun print => ⟨?_, ?_, fun record => ?_⟩,
    ⟨result, fun other => ⟨fun h => h.unique visits, fun same => same ▸ visits⟩, order⟩, order_cases distinct⟩
  · have taken : record.name ∈ graph.records.map (·.name) ↔ record.name ∈ additions.map (·.name) := by
      rw [records, mem_names_firstOfEach]
    split
    · rename_i held
      exact Registry.add_of_taken (taken.mpr held)
    · rename_i new
      exact Registry.add_of_new (mt taken.mp new)
  · exact Registry.find?_addAll_empty rootName nameSpace rootIsArray additions print
  · simp [findFingerprint?]
  · simp [findFingerprint?, List.find?_eq_some_iff_append]

/-- A record that refers to itself, one that it reaches through arrays of arrays, and one more of a taken name. -/
example :
    let node : RecordType := ⟨"Node", "N", [⟨"next", "Next", .object "Node", true⟩,
      ⟨"rows", "Rows", .array (.array (.object "Cell")), false⟩], "a"⟩
    let cell : RecordType := ⟨"Cell", "N", [⟨"x", "X", .scalar .integer, false⟩], "b"⟩
    let graph := ((Registry.empty "Node" "N" false).addAll [node, cell, ⟨"Cell", "N", [], "a"⟩]).graph
    graph.validate = .ok () ∧ graph.dependencyOrder = .ok [cell, node] := by
  decide +kernel

end Order

end Specimen.TypeGraph
