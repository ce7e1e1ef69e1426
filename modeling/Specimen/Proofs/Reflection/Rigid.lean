import Specimen.Reflection.Evaluation

/-! Referents that equal only themselves, whatever forward references denote. -/
namespace Specimen

namespace Referent

mutual

/-- Whether a referent equals no other one. -/
def isRigid : Referent → Bool
  | .data value =>
    match value with
    | .none | .str _ => true
    | _ => false
  | .generic _ _ args => areRigid args
  | .annotated inner _ | .classVar inner | .final inner => isRigid inner
  | .text _ | .forward _ _ _ | .literal _ | .initVar _ | .union _ _ => false
  | _ => true

/-- Whether each of several referents equals no other one. -/
def areRigid : List Referent → Bool
  | [] => true
  | d :: rest => isRigid d && areRigid rest

end

theorem eq_of_sameMarkers : ∀ {markers others : List Marker}, sameMarkers markers others = true →
    markers = others
  | [], [], _ => rfl
  | a :: rest, b :: others, h => by
    rw [sameMarkers, Bool.and_eq_true] at h
    have first : a = b := by
      cases a with
      | note text => exact eq_of_beq h.1
      | unserialized isInstance =>
        cases isInstance with
        | true => cases h.1
        | false => exact eq_of_beq h.1
    rw [first, eq_of_sameMarkers h.2]

private theorem equals_eq {value other : Data} (h : isRigid (.data value) = true)
    (same : other.equals value = true) : other = value := by
  cases value with
  | none => cases other with
    | none => rfl
    | float number => cases number <;> simp [Data.equals, Data.sameKey, Data.integer?] at same
    | _ => simp [Data.equals, Data.sameKey, Data.integer?] at same
  | str text => cases other with
    | str other => exact congrArg Data.str (eq_of_beq (by simpa [Data.equals, Data.sameKey] using same))
    | float number => cases number <;> simp [Data.equals, Data.sameKey, Data.integer?] at same
    | _ => simp [Data.equals, Data.sameKey, Data.integer?] at same
  | _ => simp [isRigid] at h

/-- Comparing never fails where the second referent equals only itself, whatever forward references denote. -/
def Tells (other d : Referent) : Prop :=
  ∃ same, (∀ agree, compare agree other d = .ok same) ∧ (same = true → other = d)

private theorem tells_apart {other d : Referent} (h : ∀ agree, compare agree other d = .ok false) : Tells other d :=
  ⟨false, h, nofun⟩

mutual

private theorem tells_of_isRigid : ∀ {d : Referent}, isRigid d = true → ∀ other, Tells other d
  | .data value, h, other => by
    cases other with
    | data v =>
      exact ⟨v.equals value, fun _ => by rw [compare], fun same => congrArg _ (equals_eq h same)⟩
    | _ => exact tells_apart fun _ => by simp only [compare]
  | .generic native origin args, h, other => by
    cases other with
    | generic native' origin' args' =>
      by_cases head : (native' == native && origin' == origin) = true
      · obtain ⟨same, hc, heq⟩ := tells_of_areRigid (by rwa [isRigid] at h) args'
        refine ⟨same, fun agree => by rw [compare, if_pos head, hc], fun hs => ?_⟩
        rw [Bool.and_eq_true, beq_iff_eq, beq_iff_eq] at head
        rw [head.1, head.2, heq hs]
      · exact tells_apart fun _ => by rw [compare, if_neg head]
    | _ => exact tells_apart fun _ => by simp only [compare]
  | .annotated inner markers, h, other => by
    cases other with
    | annotated inner' markers' =>
      obtain ⟨same, hc, heq⟩ := tells_of_isRigid (by rwa [isRigid] at h) inner'
      refine ⟨same && sameMarkers markers' markers, fun agree => by rw [compare, hc]; rfl, fun hs => ?_⟩
      rw [Bool.and_eq_true] at hs
      rw [heq hs.1, eq_of_sameMarkers hs.2]
    | _ => exact tells_apart fun _ => by simp only [compare]
  | .classVar inner, h, other => by
    cases other with
    | classVar inner' =>
      obtain ⟨same, hc, heq⟩ := tells_of_isRigid (by rwa [isRigid] at h) inner'
      exact ⟨same, fun agree => by rw [compare, hc], fun hs => by rw [heq hs]⟩
    | _ => exact tells_apart fun _ => by simp only [compare]
  | .final inner, h, other => by
    cases other with
    | final inner' =>
      obtain ⟨same, hc, heq⟩ := tells_of_isRigid (by rwa [isRigid] at h) inner'
      exact ⟨same, fun agree => by rw [compare, hc], fun hs => by rw [heq hs]⟩
    | _ => exact tells_apart fun _ => by simp only [compare]
  | .ellipsis, _, other | .cls _, _, other | .module _, _, other | .form _, _, other | .object _, _, other
  | .member _ _, _, other => by
    cases other <;> simp [Tells, compare]
  | .text _, h, _ | .forward _ _ _, h, _ | .literal _, h, _ | .initVar _, h, _ | .union _ _, h, _ => by
    simp [isRigid] at h

theorem tells_of_areRigid : ∀ {several : List Referent}, areRigid several = true → ∀ others,
    ∃ same, (∀ agree, compareList agree others several = .ok same) ∧ (same = true → others = several)
  | [], _, others => by
    cases others with
    | nil => exact ⟨true, fun _ => by rw [compareList], fun _ => rfl⟩
    | cons other rest => exact ⟨false, fun _ => by simp only [compareList], nofun⟩
  | d :: rest, h, others => by
    rw [areRigid, Bool.and_eq_true] at h
    cases others with
    | nil => exact ⟨false, fun _ => by simp only [compareList], nofun⟩
    | cons other others =>
      obtain ⟨first, hfirst, heq⟩ := tells_of_isRigid h.1 other
      obtain ⟨same, hsame, heqs⟩ := tells_of_areRigid h.2 others
      refine ⟨first && same, fun agree => ?_, fun hs => ?_⟩
      · rw [compareList, hfirst, hsame]
        cases first <;> rfl
      · rw [Bool.and_eq_true] at hs
        rw [heq hs.1, heqs hs.2]

end

section Unions
variable {members : List Referent} (agree agree' : Nat → Nat → Bool)

private theorem distinct_congr (h : areRigid members = true) (kept : List Referent) :
    distinct agree kept members = distinct agree' kept members := by
  induction members generalizing kept with
  | nil => rfl
  | cons d rest ih =>
    rw [areRigid, Bool.and_eq_true] at h
    have known : (fun k => compare agree k d) = fun k => compare agree' k d := by
      funext k
      obtain ⟨same, hsame, -⟩ := tells_of_isRigid h.1 k
      rw [hsame, hsame]
    simp only [distinct, known, ih h.2]

/-- A union of what equals only itself does not depend on what forward references denote. -/
theorem unite_congr (h : areRigid (flatten members) = true) (native : Bool) :
    unite agree native members = unite agree' native members := by
  rw [unite, unite, distinct_congr agree agree' h]

end Unions

section Arguments
variable {d : Referent} {args : List Referent}

theorem ne_text_of_isRigid (h : isRigid d = true) (expr : TypeExpr) : d ≠ .text expr := by
  rintro rfl
  simp [isRigid] at h

@[simp] theorem areRigid_singleton (d : Referent) : areRigid [d] = isRigid d := by
  rw [areRigid, areRigid, Bool.and_true]

private theorem isRigid_asMember (h : isRigid d = true) : isRigid (asMember d) = true := by
  rw [asMember.eq_def]
  split
  · rfl
  · exact h

theorem areRigid_map_asMember (h : areRigid args = true) : areRigid (args.map asMember) = true := by
  induction args with
  | nil => rfl
  | cons d rest ih =>
    rw [areRigid, Bool.and_eq_true] at h
    rw [List.map_cons, areRigid, isRigid_asMember h.1, ih h.2]
    rfl

/-- The members of an optional type equal only themselves where its argument does. -/
theorem areRigid_optional (h : isRigid d = true) : areRigid [asMember d, noneType] = true := by
  rw [areRigid, isRigid_asMember h]
  rfl

theorem flatten_eq (h : areRigid args = true) : flatten args = args := by
  induction args with
  | nil => rfl
  | cons d rest ih =>
    rw [areRigid, Bool.and_eq_true] at h
    rw [flatten, List.flatMap_cons, ← flatten, ih h.2]
    cases d with
    | union => simp [isRigid] at h
    | _ => rfl

@[simp] theorem asMember_asMember (d : Referent) : asMember (asMember d) = asMember d := by
  cases d with
  | data value => cases value <;> rfl
  | _ => rfl

end Arguments

end Referent

end Specimen
