import Specimen.Loading.Module
import Specimen.Proofs.Text.Pieces

/-! The packages around a module, in terms of the parts of its name. -/
namespace Specimen
variable {name outer inner last : Text} {parts more : List Text} {count : Nat}

/-- The separator of the parts of a name. -/
abbrev dot : CodePoint := 0x2E

/-- The name made of the first parts of another. -/
def beginning (parts : List Text) (count : Nat) : Text := List.intercalate [dot] (parts.take count)

/-- The packages around a module, the outermost first, and the module itself. -/
def pathTo (name : Text) : List Text := packagesOf name ++ [name]

/-- A module is another one, or the other one is inside it. -/
def Encloses (outer inner : Text) : Prop := outer.splitOn dot <+: inner.splitOn dot

/-- Parts of a name, none of which can be cut further. -/
structure ArePartsOf (parts : List Text) (name : Text) : Prop where
  filled : parts ≠ []
  apart : ∀ part ∈ parts, dot ∉ part
  joined : List.intercalate [dot] parts = name

theorem arePartsOf_splitOn (name : Text) : ArePartsOf (name.splitOn dot) name :=
  ⟨List.splitOn_ne_nil dot name, fun _ hp => Text.notMem_of_mem_splitOn hp, List.intercalate_splitOn dot⟩

namespace ArePartsOf

theorem splitOn_eq (h : ArePartsOf parts name) : name.splitOn dot = parts :=
  h.joined ▸ List.splitOn_intercalate dot h.apart h.filled

theorem take (h : ArePartsOf parts name) (positive : 0 < count) :
    ArePartsOf (parts.take count) (beginning parts count) where
  filled := by simp [h.filled, Nat.ne_of_gt positive]
  apart part hp := h.apart part (List.mem_of_mem_take hp)
  joined := rfl

private theorem packagesOf_eq (h : ArePartsOf parts name) :
    packagesOf name = (List.range (parts.length - 1)).map fun k => beginning parts (k + 1) := by
  rw [packagesOf, h.splitOn_eq]
  rfl

private theorem beginning_length (h : ArePartsOf parts name) : beginning parts parts.length = name := by
  rw [beginning, List.take_length, h.joined]

private theorem pathTo_eq (h : ArePartsOf parts name) :
    pathTo name = (List.range parts.length).map fun k => beginning parts (k + 1) := by
  have positive := List.length_pos_iff.mpr h.filled
  have whole := h.beginning_length
  obtain ⟨n, hn⟩ : ∃ n, parts.length = n + 1 := Nat.exists_eq_add_one.mpr positive
  rw [hn] at whole
  rw [pathTo, h.packagesOf_eq, hn, List.range_succ, List.map_append, List.map_singleton, whole]
  rfl

private theorem beginning_append (h : count ≤ parts.length) :
    beginning (parts ++ more) count = beginning parts count := by
  rw [beginning, List.take_append_of_le_length h, beginning]

/-- The packages around a module are those around the one directly around it, and that one. -/
private theorem packagesOf_concat (h : ArePartsOf (parts ++ [last]) name) (filled : parts ≠ []) :
    packagesOf name = pathTo (List.intercalate [dot] parts) := by
  have outer : ArePartsOf parts (List.intercalate [dot] parts) :=
    ⟨filled, fun part hp => h.apart part (List.mem_append_left _ hp), rfl⟩
  rw [h.packagesOf_eq, outer.pathTo_eq, List.length_append, List.length_singleton, Nat.add_sub_cancel]
  exact List.map_congr_left fun k hk => beginning_append (List.mem_range.mp hk)

end ArePartsOf

private theorem packagesOf_beginning (h : ArePartsOf parts name) (within : count + 1 < parts.length) :
    packagesOf (beginning parts (count + 2)) = pathTo (beginning parts (count + 1)) := by
  have split : parts.take (count + 2) = parts.take (count + 1) ++ [parts[count + 1]] :=
    List.take_succ_eq_append_getElem within
  exact (split ▸ h.take (Nat.succ_pos _)).packagesOf_concat (h.take (Nat.succ_pos count)).filled

private theorem packagesOf_first (h : ArePartsOf parts name) : packagesOf (beginning parts 1) = [] := by
  have length : (parts.take 1).length - 1 = 0 := by
    rw [List.length_take]
    omega
  rw [(h.take Nat.one_pos).packagesOf_eq, length]
  rfl

theorem parentOf_beginning (h : ArePartsOf parts name) (within : count + 1 < parts.length) :
    parentOf (beginning parts (count + 2)) = beginning parts (count + 1) := by
  rw [parentOf, packagesOf_beginning h within, pathTo, List.getLast?_concat]
  rfl

private theorem parentOf_first (h : ArePartsOf parts name) : parentOf (beginning parts 1) = [] := by
  rw [parentOf, packagesOf_first h]
  rfl

/-- The way to a module leads over the package directly around it. -/
theorem pathTo_parentOf (h : parentOf name ≠ []) : pathTo name = pathTo (parentOf name) ++ [name] := by
  have parts := arePartsOf_splitOn name
  have whole := parts.beginning_length
  match length : (name.splitOn dot).length with
  | 0 => exact absurd (List.length_eq_zero_iff.mp length) parts.filled
  | 1 =>
    rw [length] at whole
    exact absurd (whole ▸ parentOf_first parts) h
  | count + 2 =>
    rw [length] at whole
    have within : count + 1 < (name.splitOn dot).length := by omega
    have packages := packagesOf_beginning parts within
    have parent := parentOf_beginning parts within
    rw [whole] at packages parent
    rw [parent, pathTo, packages]

namespace Encloses

theorem of_mem_pathTo (h : outer ∈ pathTo inner) : Encloses outer inner := by
  have parts := arePartsOf_splitOn inner
  rw [parts.pathTo_eq] at h
  obtain ⟨k, -, rfl⟩ := List.mem_map.mp h
  rw [Encloses, (parts.take (Nat.succ_pos k)).splitOn_eq]
  exact List.take_prefix _ _

theorem trans {middle : Text} (h : Encloses outer middle) (h' : Encloses middle inner) :
    Encloses outer inner := List.IsPrefix.trans h h'

/-- Two modules on the way to a third one: one of them encloses the other. -/
theorem total {middle : Text} (h : Encloses outer inner) (h' : Encloses middle inner) :
    Encloses outer middle ∨ Encloses middle outer := List.prefix_or_prefix_of_prefix h h'

/-- On the way to a module no later step encloses an earlier one. -/
theorem pairwise_pathTo (name : Text) : (pathTo name).Pairwise fun earlier later => ¬ Encloses later earlier := by
  have parts := arePartsOf_splitOn name
  rw [parts.pathTo_eq, List.pairwise_map]
  refine List.pairwise_lt_range.imp_of_mem fun {i j} _ hj earlier within => ?_
  have shorter := within.length_le
  rw [(parts.take (Nat.succ_pos j)).splitOn_eq, (parts.take (Nat.succ_pos i)).splitOn_eq, List.length_take,
    List.length_take] at shorter
  have := List.mem_range.mp hj
  omega

/-- No package around a module is inside it. -/
theorem not_of_mem_packagesOf (h : outer ∈ packagesOf inner) : ¬ Encloses inner outer :=
  (List.pairwise_append.mp (pairwise_pathTo inner)).2.2 outer h inner (List.mem_singleton_self inner)

/-- The way to a module inside another leads over that one, and stays inside from there. -/
theorem exists_pathTo (h : Encloses outer inner) :
    ∃ deeper, pathTo inner = pathTo outer ++ deeper ∧ ∀ name ∈ deeper, Encloses outer name := by
  obtain ⟨more, whole⟩ := h
  have near := arePartsOf_splitOn outer
  have far : ArePartsOf (outer.splitOn dot ++ more) inner := whole ▸ arePartsOf_splitOn inner
  refine ⟨(List.range more.length).map fun k =>
    beginning (outer.splitOn dot ++ more) ((outer.splitOn dot).length + k + 1), ?_, fun name hn => ?_⟩
  · rw [far.pathTo_eq, near.pathTo_eq, List.length_append, List.range_add, List.map_append, List.map_map]
    congr 1
    exact List.map_congr_left fun k hk => ArePartsOf.beginning_append (List.mem_range.mp hk)
  · obtain ⟨k, -, rfl⟩ := List.mem_map.mp hn
    rw [Encloses, (far.take (Nat.succ_pos _)).splitOn_eq, Nat.succ_eq_add_one, Nat.add_assoc, List.take_length_add_append]
    exact List.prefix_append _ _

/-- What is inside a module is that module or in a package inside it. -/
theorem eq_or_parentOf (h : Encloses outer inner) : inner = outer ∨ Encloses outer (parentOf inner) := by
  obtain ⟨deeper, path, inside⟩ := h.exists_pathTo
  rcases List.eq_nil_or_concat deeper with rfl | ⟨front, last, rfl⟩
  · left
    rw [List.append_nil, pathTo, pathTo] at path
    exact List.singleton_inj.mp (List.append_inj_right' path rfl)
  · right
    rw [pathTo, List.concat_eq_append, ← List.append_assoc] at path
    have packages := List.append_inj_left' path rfl
    rw [parentOf, packages, pathTo]
    rcases List.eq_nil_or_concat front with rfl | ⟨front, middle, rfl⟩
    · rw [List.append_nil, List.getLast?_concat]
      exact List.prefix_refl _
    · rw [List.concat_eq_append, ← List.append_assoc, List.getLast?_concat]
      exact inside middle (by simp)

/-- What is inside a package, or such a module itself, has a name. -/
theorem ne_nil (h : Encloses outer inner) (inside : parentOf outer ≠ []) : inner ≠ [] := by
  rintro rfl
  have parts := arePartsOf_splitOn outer
  have first : outer.splitOn dot = [[]] :=
    (List.prefix_cons_iff.mp h).resolve_left parts.filled |>.elim fun t ht => by
      rw [ht.1, List.prefix_nil.mp ht.2]
      rfl
  exact inside (by rw [← parts.joined, first]; rfl)

end Encloses

theorem encloses_parentOf (h : parentOf name ≠ []) : Encloses (parentOf name) name := by
  refine Encloses.of_mem_pathTo (pathTo_parentOf h ▸ ?_)
  exact List.mem_append_left _ (List.mem_append_right _ (List.mem_singleton_self _))

theorem encloses_beginning (h : ArePartsOf parts name) {more : Nat} (positive : 0 < count)
    (le : count ≤ more) : Encloses (beginning parts count) (beginning parts more) := by
  rw [Encloses, (h.take positive).splitOn_eq, (h.take (Nat.lt_of_lt_of_le positive le)).splitOn_eq]
  exact List.take_prefix_take_left le

/-- What is left of a name behind its first parts. -/
def remainder (parts : List Text) (count : Nat) : Text := List.intercalate [dot] (parts.drop count)

theorem beginning_append_remainder (positive : 0 < count) (proper : count < parts.length) :
    beginning parts count ++ dot :: remainder parts count = List.intercalate [dot] parts := by
  have front : parts.take count ≠ [] := by
    rw [Ne, List.take_eq_nil_iff, not_or]
    exact ⟨Nat.ne_of_gt positive, fun h => by simp [h] at proper⟩
  have back : parts.drop count ≠ [] := by simpa [List.drop_eq_nil_iff] using proper
  conv_rhs => rw [← List.take_append_drop count parts, Text.intercalate_append _ front back]
  rw [List.append_assoc]
  rfl

/-- A longer beginning goes on behind a dot. -/
theorem exists_beginning_eq {more : Nat} (positive : 0 < count) (longer : count < more)
    (le : more ≤ parts.length) : ∃ rest, beginning parts more = beginning parts count ++ dot :: rest := by
  have proper : count < (parts.take more).length := by
    rw [List.length_take]
    omega
  refine ⟨remainder (parts.take more) count, ?_⟩
  rw [beginning, ← beginning_append_remainder positive proper, beginning, beginning, List.take_take,
    Nat.min_eq_left (Nat.le_of_lt longer)]

/-- What a beginning of a name is inside is a beginning of it too. -/
theorem Encloses.exists_beginning (h : ArePartsOf parts name) {more : Nat} (positive : 0 < more)
    (within : Encloses outer (beginning parts more)) :
    outer = beginning parts (outer.splitOn dot).length ∧ (outer.splitOn dot).length ≤ more := by
  rw [Encloses, (h.take positive).splitOn_eq] at within
  have shorter := Nat.le_trans within.length_le (List.length_take_le more parts)
  have same := List.prefix_iff_eq_take.mp (List.IsPrefix.trans within (List.take_prefix more parts))
  exact ⟨by rw [beginning, ← same, (arePartsOf_splitOn outer).joined], shorter⟩

end Specimen
