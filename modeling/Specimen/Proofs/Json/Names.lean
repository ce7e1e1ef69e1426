import Specimen.Json.Parse

/-! Conditions on the member names of every object of a value. Parsed documents name no member of an
object twice. -/
namespace Specimen

/-- A new name is put at the end. -/
theorem put_of_notMem {κ α : Type} [BEq κ] [LawfulBEq κ] {key : κ} {entries : List (κ × α)}
    (h : key ∉ entries.map (·.1)) (value : α) : Json.put key value entries = entries ++ [(key, value)] := by
  induction entries with
  | nil => rfl
  | cons entry rest ih =>
    obtain ⟨hne, hout⟩ := not_or.mp (mt List.mem_cons.mpr h)
    rw [Json.put, if_neg fun hk => hne (eq_of_beq hk).symm, ih hout, List.cons_append]

namespace Json

namespace Value
variable {κ : Type}

mutual

/-- The names of every object, at any depth, satisfy a condition. -/
def EveryObject (p : List κ → Prop) : Value κ → Prop
  | .array items => EveryObjectOfItems p items
  | .object members => p (names members) ∧ EveryObjectOfMembers p members
  | _ => True

def EveryObjectOfItems (p : List κ → Prop) : List (Value κ) → Prop
  | [] => True
  | item :: rest => EveryObject p item ∧ EveryObjectOfItems p rest

def EveryObjectOfMembers (p : List κ → Prop) : List (κ × Value κ) → Prop
  | [] => True
  | (_, value) :: rest => EveryObject p value ∧ EveryObjectOfMembers p rest

end

mutual

instance decidableEveryObject (p : List κ → Prop) [DecidablePred p] :
    ∀ value : Value κ, Decidable (EveryObject p value)
  | .array items => decidableEveryObjectOfItems p items
  | .object members =>
    have := decidableEveryObjectOfMembers p members
    inferInstanceAs (Decidable (p (names members) ∧ EveryObjectOfMembers p members))
  | .null | .bool _ | .number _ | .string _ => .isTrue trivial

instance decidableEveryObjectOfItems (p : List κ → Prop) [DecidablePred p] :
    ∀ items : List (Value κ), Decidable (EveryObjectOfItems p items)
  | [] => .isTrue trivial
  | item :: rest =>
    have := decidableEveryObject p item
    have := decidableEveryObjectOfItems p rest
    inferInstanceAs (Decidable (EveryObject p item ∧ EveryObjectOfItems p rest))

instance decidableEveryObjectOfMembers (p : List κ → Prop) [DecidablePred p] :
    ∀ members : List (κ × Value κ), Decidable (EveryObjectOfMembers p members)
  | [] => .isTrue trivial
  | (_, value) :: rest =>
    have := decidableEveryObject p value
    have := decidableEveryObjectOfMembers p rest
    inferInstanceAs (Decidable (EveryObject p value ∧ EveryObjectOfMembers p rest))

end

private theorem everyObjectOfItems_iff (p : List κ → Prop) (items : List (Value κ)) :
    EveryObjectOfItems p items ↔ ∀ item ∈ items, EveryObject p item := by
  induction items with
  | nil => simp [EveryObjectOfItems]
  | cons item rest ih => simp [EveryObjectOfItems, ih]

private theorem everyObjectOfMembers_iff (p : List κ → Prop) (members : List (κ × Value κ)) :
    EveryObjectOfMembers p members ↔ ∀ member ∈ members, EveryObject p member.2 := by
  induction members with
  | nil => simp [EveryObjectOfMembers]
  | cons member rest ih => simp [EveryObjectOfMembers, ih]

theorem everyObject_array (p : List κ → Prop) (items : List (Value κ)) :
    EveryObject p (.array items) ↔ ∀ item ∈ items, EveryObject p item := by
  rw [EveryObject, everyObjectOfItems_iff]

theorem everyObject_object (p : List κ → Prop) (members : List (κ × Value κ)) :
    EveryObject p (.object members) ↔
      p (names members) ∧ ∀ member ∈ members, EveryObject p member.2 := by
  rw [EveryObject, everyObjectOfMembers_iff]

mutual

theorem EveryObject.imp {p q : List κ → Prop} (weaker : ∀ names, p names → q names) : ∀ value : Value κ,
    value.EveryObject p → value.EveryObject q
  | .array items => EveryObjectOfItems.imp weaker items
  | .object members => And.imp (weaker _) (EveryObjectOfMembers.imp weaker members)
  | .null | .bool _ | .number _ | .string _ => id

private theorem EveryObjectOfItems.imp {p q : List κ → Prop} (weaker : ∀ names, p names → q names) :
    ∀ items : List (Value κ), EveryObjectOfItems p items → EveryObjectOfItems q items
  | [] => id
  | item :: rest => And.imp (EveryObject.imp weaker item) (EveryObjectOfItems.imp weaker rest)

private theorem EveryObjectOfMembers.imp {p q : List κ → Prop} (weaker : ∀ names, p names → q names) :
    ∀ members : List (κ × Value κ), EveryObjectOfMembers p members → EveryObjectOfMembers q members
  | [] => id
  | (_, value) :: rest => And.imp (EveryObject.imp weaker value) (EveryObjectOfMembers.imp weaker rest)

end

mutual

theorem everyObject_of_forall {p : List κ → Prop} (h : ∀ names, p names) : ∀ value : Value κ, value.EveryObject p
  | .array items => everyObjectOfItems_of_forall h items
  | .object members => ⟨h _, everyObjectOfMembers_of_forall h members⟩
  | .null | .bool _ | .number _ | .string _ => trivial

private theorem everyObjectOfItems_of_forall {p : List κ → Prop} (h : ∀ names, p names) :
    ∀ items : List (Value κ), EveryObjectOfItems p items
  | [] => trivial
  | item :: rest => ⟨everyObject_of_forall h item, everyObjectOfItems_of_forall h rest⟩

private theorem everyObjectOfMembers_of_forall {p : List κ → Prop} (h : ∀ names, p names) :
    ∀ members : List (κ × Value κ), EveryObjectOfMembers p members
  | [] => trivial
  | (_, value) :: rest => ⟨everyObject_of_forall h value, everyObjectOfMembers_of_forall h rest⟩

end

theorem get?_eq_none_iff [BEq κ] [LawfulBEq κ] {members : List (κ × Value κ)} {name : κ} :
    get? members name = none ↔ name ∉ names members := by
  simp only [get?, Option.map_eq_none_iff, List.find?_eq_none, beq_iff_eq, names, List.mem_map,
    not_exists, not_and]

theorem get?_eq_some_iff [BEq κ] [LawfulBEq κ] {members : List (κ × Value κ)} {name : κ}
    {value : Value κ} (distinct : (names members).Nodup) :
    get? members name = some value ↔ (name, value) ∈ members := by
  induction members with
  | nil => simp [get?]
  | cons member rest ih =>
    obtain ⟨hout, hrest⟩ := List.nodup_cons.mp distinct
    have hrec : get? rest name = (rest.find? (·.1 == name)).map (·.2) := rfl
    rw [get?, List.find?_cons, List.mem_cons]
    split
    · rename_i hk
      have hname : member.1 = name := eq_of_beq hk
      have hnot : (name, value) ∉ rest := fun hm =>
        hout (List.mem_map.mpr ⟨(name, value), hm, hname.symm⟩)
      simp [Prod.ext_iff, hname, hnot, eq_comm]
    · rename_i hk
      have hname : ¬ name = member.1 := fun he => by simp [he] at hk
      rw [← hrec, ih hrest]
      simp [Prod.ext_iff, hname]

/-- No object, at any depth, names a member twice. -/
def DistinctNames (value : Value κ) : Prop := value.EveryObject List.Nodup

instance [DecidableEq κ] (value : Value κ) : Decidable value.DistinctNames :=
  inferInstanceAs (Decidable (value.EveryObject List.Nodup))

end Value

section Collapse
variable {κ α : Type} [BEq κ] [LawfulBEq κ]

theorem mem_put {key : κ} {value : α} {entry : κ × α} {entries : List (κ × α)}
    (h : entry ∈ put key value entries) : entry = (key, value) ∨ entry ∈ entries := by
  induction entries with
  | nil => simpa [put] using h
  | cons head rest ih =>
    rw [put] at h
    split at h
    · rename_i hk
      have hk' : head.1 = key := eq_of_beq hk
      rcases List.mem_cons.mp h with h | h
      · exact .inl (by rw [h, hk'])
      · exact .inr (List.mem_cons_of_mem _ h)
    · rcases List.mem_cons.mp h with h | h
      · exact .inr (by rw [h]; exact List.mem_cons_self)
      · exact (ih h).imp id (List.mem_cons_of_mem _)

theorem names_put (key : κ) (value : α) (entries : List (κ × α)) :
    (put key value entries).map (·.1) =
      if key ∈ entries.map (·.1) then entries.map (·.1) else entries.map (·.1) ++ [key] := by
  induction entries with
  | nil => simp [put]
  | cons entry rest ih =>
    rw [put]
    split
    · rename_i same
      cases eq_of_beq same
      simp
    · rename_i other
      have other : ¬ key = entry.1 := fun same => other (beq_iff_eq.mpr same.symm)
      simp only [List.map_cons, ih, List.mem_cons, other, false_or]
      split <;> rfl

private theorem mem_names_put {key name : κ} {value : α} {entries : List (κ × α)} :
    name ∈ (put key value entries).map (·.1) ↔ name = key ∨ name ∈ entries.map (·.1) := by
  induction entries with
  | nil => simp [put]
  | cons head rest ih =>
    rw [put]
    split
    · rename_i hk
      have hk' : head.1 = key := eq_of_beq hk
      simp [hk']
    · simp only [List.map_cons, List.mem_cons, ih]
      exact or_left_comm

theorem nodup_put {key : κ} {value : α} {entries : List (κ × α)}
    (h : (entries.map (·.1)).Nodup) : ((put key value entries).map (·.1)).Nodup := by
  induction entries with
  | nil => simp [put]
  | cons head rest ih =>
    obtain ⟨hout, hrest⟩ := List.nodup_cons.mp h
    rw [put]
    split
    · exact h
    · rename_i hk
      refine List.nodup_cons.mpr ⟨?_, ih hrest⟩
      intro hin
      rcases mem_names_put.mp hin with he | hin
      · exact hk (beq_iff_eq.mpr he)
      · exact hout hin

private theorem collapse_from (entries kept : List (κ × α)) (h : (kept.map (·.1)).Nodup) :
    ((entries.foldl (fun kept entry => put entry.1 entry.2 kept) kept).map (·.1)).Nodup ∧
      ∀ entry ∈ entries.foldl (fun kept entry => put entry.1 entry.2 kept) kept,
        entry ∈ kept ∨ entry ∈ entries := by
  induction entries generalizing kept with
  | nil => exact ⟨h, fun entry he => .inl he⟩
  | cons head rest ih =>
    obtain ⟨hn, hm⟩ := ih (put head.1 head.2 kept) (nodup_put h)
    refine ⟨hn, fun entry he => ?_⟩
    rcases hm entry he with he | he
    · rcases mem_put he with he | he
      · exact .inr (by rw [he]; exact List.mem_cons_self)
      · exact .inl he
    · exact .inr (List.mem_cons_of_mem _ he)

theorem nodup_collapse (entries : List (κ × α)) : ((collapse entries).map (·.1)).Nodup :=
  (collapse_from entries [] List.nodup_nil).1

theorem mem_of_mem_collapse {entries : List (κ × α)} {entry : κ × α}
    (h : entry ∈ collapse entries) : entry ∈ entries :=
  ((collapse_from entries [] List.nodup_nil).2 entry h).resolve_left List.not_mem_nil

end Collapse

namespace Value

mutual

private theorem distinctNames_dedupe : ∀ document : Document, document.dedupe.DistinctNames
  | .array items => by
    rw [dedupe, DistinctNames, everyObject_array]
    exact distinctNames_dedupeItems items
  | .object members => by
    rw [dedupe, DistinctNames, everyObject_object]
    exact ⟨nodup_collapse _,
      fun member h => distinctNames_dedupeMembers members member (mem_of_mem_collapse h)⟩
  | .null | .bool _ | .number _ | .string _ => by simp [dedupe, DistinctNames, EveryObject]

private theorem distinctNames_dedupeItems : ∀ (items : List Document),
    ∀ item ∈ dedupeItems items, item.EveryObject List.Nodup
  | [], _, h => by simp [dedupeItems] at h
  | item :: rest, other, h => by
    rw [dedupeItems] at h
    rcases List.mem_cons.mp h with h | h
    · rw [h]; exact distinctNames_dedupe item
    · exact distinctNames_dedupeItems rest other h

private theorem distinctNames_dedupeMembers : ∀ (members : List (Text × Document)),
    ∀ member ∈ dedupeMembers members, member.2.EveryObject List.Nodup
  | [], _, h => by simp [dedupeMembers] at h
  | (name, value) :: rest, other, h => by
    rw [dedupeMembers] at h
    rcases List.mem_cons.mp h with h | h
    · rw [h]; exact distinctNames_dedupe value
    · exact distinctNames_dedupeMembers rest other h

end

end Value

namespace Value

theorem depthOfItems_le {κ : Type} {bound : Nat} {items : List (Value κ)} :
    depthOfItems items ≤ bound ↔ ∀ item ∈ items, item.depth ≤ bound := by
  induction items with
  | nil => simp [depthOfItems]
  | cons item rest ih => rw [depthOfItems, Nat.max_le, ih, List.forall_mem_cons]

theorem depthOfMembers_le {κ : Type} {bound : Nat} {members : List (κ × Value κ)} :
    depthOfMembers members ≤ bound ↔ ∀ member ∈ members, member.2.depth ≤ bound := by
  induction members with
  | nil => simp [depthOfMembers]
  | cons member rest ih => rw [depthOfMembers, Nat.max_le, ih, List.forall_mem_cons]

mutual

private theorem depth_dedupe_le : ∀ document : Document, document.dedupe.depth ≤ document.depth
  | .array items => by
    rw [dedupe, depth, depth]
    exact Nat.add_le_add_left (depth_dedupeItems_le items) 1
  | .object members => by
    rw [dedupe, depth, depth]
    refine Nat.add_le_add_left (depthOfMembers_le.mpr fun member h => ?_) 1
    exact depthOfMembers_le.mp (depth_dedupeMembers_le members) member (mem_of_mem_collapse h)
  | .null | .bool _ | .number _ | .string _ => by simp [dedupe]

private theorem depth_dedupeItems_le : ∀ items : List Document,
    depthOfItems (dedupeItems items) ≤ depthOfItems items
  | [] => by simp [dedupeItems]
  | item :: rest => by
    have hitem := depth_dedupe_le item
    have hrest := depth_dedupeItems_le rest
    simp only [dedupeItems, depthOfItems]
    omega

private theorem depth_dedupeMembers_le : ∀ members : List (Text × Document),
    depthOfMembers (dedupeMembers members) ≤ depthOfMembers members
  | [] => by simp [dedupeMembers]
  | (_, value) :: rest => by
    have hvalue := depth_dedupe_le value
    have hrest := depth_dedupeMembers_le rest
    simp only [dedupeMembers, depthOfMembers]
    omega

end

end Value

/-- A parsed document is one that was read, nested within the bound, with each name once. -/
theorem exists_read_of_parse {text : Text} {document : Document} (h : parse text = .ok document) :
    ∃ parsed, read parseLimits text = .ok parsed ∧ parsed.depth ≤ documentNesting ∧
      document = parsed.dedupe := by
  unfold parse at h
  split at h
  · cases h
  · cases h
  · split at h
    · cases h
    · cases h
    · cases h
    · rename_i parsed hread
      split at h
      · cases h
      · rename_i hdepth
        cases h
        exact ⟨parsed, hread, Nat.le_of_not_lt hdepth, rfl⟩

/-- A parsed document has distinct names and is nested within the bound. -/
theorem parse_ok {text : Text} {document : Document} (h : parse text = .ok document) :
    document.DistinctNames ∧ document.depth ≤ documentNesting := by
  obtain ⟨parsed, -, hdepth, rfl⟩ := exists_read_of_parse h
  exact ⟨Value.distinctNames_dedupe parsed, Nat.le_trans (Value.depth_dedupe_le parsed) hdepth⟩

end Json

end Specimen
