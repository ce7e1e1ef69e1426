import Specimen.Proofs.Reflection.Marking

/-! What an expression denotes, told from its head: a marked type, a firm one, or one that leaves its member in
documents. -/
namespace Specimen

namespace Referent

/-- Whether a head makes firm types of any arguments. -/
def makesFirm : Referent → Bool
  | .form (.alias _ _ _) | .form .final => true
  | .cls c => c != .standard .initVar
  | _ => false

/-- Whether a head makes unions of its arguments. -/
def makesUnions : Referent → Bool
  | .form .optional | .form .union => true
  | _ => false

end Referent

namespace Environment
variable {env : Environment} {expr : TypeExpr} {d : Referent} {memory after : Memory}

section Marking

/-- Whether an expression denotes a marked type wherever it denotes one. -/
def isMarking (env : Environment) : TypeExpr → Bool
  | .name dotted => match env.denote dotted with
    | .ok (.form .classVar) | .error _ => true
    | _ => false
  | .subscript head _ => match env.denote head with
    | .ok (.form .classVar) | .ok (.cls (.standard .initVar)) | .error _ => true
    | _ => false
  | .annotated _ markers => match env.denote "typing.Annotated", env.denoteMarkers markers with
    | .ok (.form .annotated), .ok found => found.any Referent.isMark
    | .error _, _ | _, .error _ => true
    | _, _ => false
  | _ => false

private theorem isMarked_of_subscribe {world : World} {owner : Referent} {args : List Referent}
    (start : memory.TellsMarks) (marking : owner = .form .classVar ∨ owner = .cls (.standard .initVar))
    (h : Gives (Referent.subscribe world owner args) memory d after) : d.isMarked = true := by
  rcases marking with rfl | rfl
  · match args with
    | [arg] => exact (Referent.Forms.classVar world arg).tellsMarks_recalled start h
    | [] | _ :: _ :: _ => cases h
  · match args with
    | [arg] =>
      rw [(Gives.pure h).1]
      rfl
    | [] | _ :: _ :: _ => cases h

/-- What an expression with a mark at its head denotes is marked. -/
theorem yields_isMarked (marking : env.isMarking expr = true) : env.Yields expr Referent.isMarked := by
  intro memory d after start h
  cases expr with
  | name dotted =>
    have denoted : env.denoteType dotted = .ok d := h.of_liftM.1
    obtain ⟨owner, howner, denoted⟩ := ok_of_bind denoted
    rw [isMarking, howner] at marking
    split at marking
    · rename_i form
      cases form
      cases denoted
      rfl
    · rename_i failed
      cases failed
    · cases marking
  | subscript head args =>
    obtain ⟨owner, _, denoting, rest⟩ := Gives.bind h
    obtain ⟨found, middle, hfound, applying⟩ := Gives.bind rest
    obtain ⟨denoted, rfl⟩ := denoting.of_liftM
    refine isMarked_of_subscribe ((env.keeps_evaluateAll args).of_gives start hfound).tells ?_ applying
    rw [isMarking, denoted] at marking
    split at marking
    · rename_i form
      exact .inl (Except.ok.inj form)
    · rename_i initVar
      exact .inr (Except.ok.inj initVar)
    · rename_i failed
      cases failed
    · cases marking
  | annotated inner markers =>
    obtain ⟨owner, _, denoting, rest⟩ := Gives.bind h
    obtain ⟨arg, middle, harg, rest⟩ := Gives.bind rest
    obtain ⟨found, _, reading, applying⟩ := Gives.bind rest
    obtain ⟨denoted, rfl⟩ := denoting.of_liftM
    obtain ⟨hfound, rfl⟩ := reading.of_liftM
    have hmiddle := (env.keeps_evaluate inner).of_gives start harg
    rw [isMarking, denoted, hfound] at marking
    split at marking
    · rename_i form marks
      cases form
      cases marks
      have forms := Referent.Forms.annotated env.world arg found
      exact (forms.tellsMarks_recalled hmiddle.tells applying).1 marking
    · contradiction
    · contradiction
    · cases marking
  | _ => cases marking

end Marking

mutual

/-- Whether an expression denotes a firm type wherever it denotes one: a name of one, a generic, or of such
expressions a union or a type with notes. -/
def isFirming (env : Environment) : TypeExpr → Bool
  | .none | .ellipsis => true
  | .quoted _ => false
  | .name dotted => match env.denoteType dotted with
    | .ok d => d.isFirm
    | .error _ => true
  | .subscript head args => match env.denote head with
    | .ok owner => owner.makesFirm || (owner.makesUnions && !args.isEmpty && areFirming env args)
    | .error _ => true
  | .literal _ => match env.denote "typing.Literal" with
    | .ok (.form .literal) | .error _ => true
    | _ => false
  | .annotated inner markers => match env.denote "typing.Annotated", env.denoteMarkers markers with
    | .ok (.form .annotated), .ok found => !found.any Referent.isMark && isFirming env inner
    | .error _, _ | _, .error _ => true
    | _, _ => false
  | .union operands => areFirming env operands

/-- Whether this holds of several expressions. -/
def areFirming (env : Environment) : List TypeExpr → Bool
  | [] => true
  | expr :: rest => isFirming env expr && areFirming env rest

end

/-- Whether an expression denotes a type that leaves its member in documents wherever it denotes one: a firm
one, an optional type, or a union with a firm member. -/
def isOpening (env : Environment) : TypeExpr → Bool
  | .subscript head args => match env.denote head with
    | .ok (.form .optional) => true
    | .ok (.form .union) => args.any env.isFirming
    | _ => env.isFirming (.subscript head args)
  | expr => env.isFirming expr

section Firming
variable {world : World} {owner a b : Referent} {args : List Referent}

private theorem isFirm_of_apply {name : Text} {origin : StandardClass} {arity : Option Nat}
    (start : memory.TellsMarks)
    (h : Gives (Referent.apply world (.alias name origin arity) args) memory d after) : d.isFirm = true := by
  have recalled (h : Gives (Evaluator.recalling (.alias name origin arity) args [] do
      let accepted ← Referent.acceptAll world args
      Referent.checkCount name args.length arity
      return .generic false (.standard origin) accepted) memory d after) : d.isFirm = true :=
    (Referent.Forms.generic world name origin arity args).tellsMarks_recalled start h
  rw [Referent.apply] at h
  split at h
  · split at h
    · cases h
    · exact recalled h
  · exact recalled h

private theorem isFirm_of_subscribe (start : memory.TellsMarks) (firming : owner.makesFirm = true)
    (h : Gives (Referent.subscribe world owner args) memory d after) : d.isFirm = true := by
  rw [Referent.subscribe.eq_def] at h
  split at h
  · rename_i kind
    cases kind with
    | final =>
      rcases args with _ | ⟨arg, _ | ⟨_, _⟩⟩
      · cases h
      · exact (Referent.Forms.final world arg).tellsMarks_recalled start h
      · cases h
    | classVar | optional | union | annotated | literal => cases firming
    | _ => exact isFirm_of_apply start h
  · cases firming
  · split at h
    · rw [(Gives.pure h).1]
      rfl
    · cases h
    · cases h
  · split at h
    · rw [(Gives.pure h).1]
      rfl
    · cases h
  · cases h

private theorem isFirm_of_uniting (start : memory.TellsMarks) (uniting : owner.makesUnions = true) (given : args ≠ [])
    (firm : ∀ arg ∈ args, arg.isFirm = true)
    (h : Gives (Referent.subscribe world owner args) memory d after) : d.isFirm = true := by
  match owner, uniting with
  | .form .optional, _ =>
    match args with
    | [arg] => exact ((Referent.Forms.optional world arg).tellsMarks_recalled start h).2 firm
    | [] | _ :: _ :: _ => cases h
  | .form .union, _ => exact (Referent.tellsMarks_of_makeUnion start h).2 given firm

private theorem isFirm_of_join (start : memory.IsSound) (left : a.isFirm = true) (right : b.isFirm = true)
    (h : Gives (Referent.join world a b) memory d after) : d.isFirm = true := by
  rw [Referent.join] at h
  split at h
  · refine Referent.isFirm_of_unite (Referent.unite_of_uniteNew h) (by simp) ?_
    simp [Referent.isFirm_asMember left, Referent.isFirm_asMember right]
  · split at h
    · exact (Referent.tellsMarks_of_makeUnion start.tells h).2 (by simp) (by simp [left, right])
    · cases h

mutual

/-- What a firming expression denotes is firm. -/
private theorem isFirm_of_evaluate : ∀ {expr : TypeExpr}, env.isFirming expr = true →
    ∀ {memory d after}, memory.IsSound → Gives (env.evaluate expr) memory d after → d.isFirm = true
  | .none, _, memory, d, after, start, h | .ellipsis, _, memory, d, after, start, h => by
    rw [(Gives.pure h).1]
    rfl
  | .name dotted, firming, memory, d, after, start, h => by
    have denoted : env.denoteType dotted = .ok d := h.of_liftM.1
    rwa [isFirming, denoted] at firming
  | .subscript head args, firming, memory, d, after, start, h => by
    obtain ⟨owner, _, denoting, rest⟩ := Gives.bind h
    obtain ⟨found, middle, hfound, applying⟩ := Gives.bind rest
    obtain ⟨denoted, rfl⟩ := denoting.of_liftM
    have hmiddle := ((env.keeps_evaluateAll args).of_gives start hfound).tells
    rw [isFirming, denoted, Bool.or_eq_true, Bool.and_eq_true, Bool.and_eq_true] at firming
    rcases firming with firming | ⟨⟨uniting, given⟩, firming⟩
    · exact isFirm_of_subscribe hmiddle firming applying
    · obtain ⟨length, firm⟩ := all_isFirm_of_evaluateAll firming start hfound
      rw [Bool.not_eq_true', List.isEmpty_eq_false_iff, ← List.length_pos_iff, ← length,
        List.length_pos_iff] at given
      exact isFirm_of_uniting hmiddle uniting given firm applying
  | .literal values, firming, memory, d, after, start, h => by
    obtain ⟨owner, _, denoting, rest⟩ := Gives.bind h
    obtain ⟨denoted, rfl⟩ := denoting.of_liftM
    rw [isFirming, denoted] at firming
    split at firming
    · rename_i form
      cases form
      exact (Referent.Forms.literal values).tellsMarks_recalled start.tells rest
    · rename_i failed
      cases failed
    · cases firming
  | .annotated inner markers, firming, memory, d, after, start, h => by
    obtain ⟨owner, _, denoting, rest⟩ := Gives.bind h
    obtain ⟨arg, middle, harg, rest⟩ := Gives.bind rest
    obtain ⟨found, _, reading, applying⟩ := Gives.bind rest
    obtain ⟨denoted, rfl⟩ := denoting.of_liftM
    obtain ⟨hfound, rfl⟩ := reading.of_liftM
    have hmiddle := (env.keeps_evaluate inner).of_gives start harg
    rw [isFirming, denoted, hfound] at firming
    split at firming
    · rename_i form marks
      cases form
      cases marks
      rw [Bool.and_eq_true, Bool.not_eq_true'] at firming
      have forms := Referent.Forms.annotated env.world arg found
      refine (forms.tellsMarks_recalled hmiddle.tells applying).2 firming.1 ?_
      simpa using isFirm_of_evaluate firming.2 start harg
    · contradiction
    · contradiction
    · cases firming
  | .union operands, firming, memory, d, after, start, h => by
    rw [isFirming] at firming
    exact isFirm_of_evaluateBars firming start (by rintro _ ⟨⟩) h

private theorem all_isFirm_of_evaluateAll : ∀ {several : List TypeExpr}, env.areFirming several = true →
    ∀ {memory found after}, memory.IsSound → Gives (env.evaluateAll several) memory found after →
      found.length = several.length ∧ ∀ d ∈ found, d.isFirm = true
  | [], _, memory, found, after, start, h => by
    rw [(Gives.pure h).1]
    exact ⟨rfl, nofun⟩
  | expr :: rest, firming, memory, found, after, start, h => by
    obtain ⟨first, middle, hfirst, h⟩ := Gives.bind h
    obtain ⟨others, _, hothers, h⟩ := Gives.bind h
    rw [areFirming, Bool.and_eq_true] at firming
    obtain ⟨length, firm⟩ :=
      all_isFirm_of_evaluateAll firming.2 ((env.keeps_evaluate expr).of_gives start hfirst) hothers
    rw [(Gives.pure h).1]
    exact ⟨congrArg (· + 1) length,
      List.forall_mem_cons.mpr ⟨isFirm_of_evaluate firming.1 start hfirst, firm⟩⟩

private theorem isFirm_of_evaluateBars : ∀ {operands : List TypeExpr}, env.areFirming operands = true →
    ∀ {memory d after joined}, memory.IsSound → (∀ before, joined = some before → before.isFirm = true) →
      Gives (env.evaluateBars joined operands) memory d after → d.isFirm = true
  | [], _, memory, d, after, joined, start, firm, h => by
    rw [(Gives.pure h).1]
    cases joined with
    | none => rfl
    | some before => exact firm before rfl
  | expr :: rest, firming, memory, d, after, joined, start, firm, h => by
    rw [areFirming, Bool.and_eq_true] at firming
    obtain ⟨next, middle, hnext, h⟩ := Gives.bind h
    have hmiddle := (env.keeps_evaluate expr).of_gives start hnext
    have hfirm := isFirm_of_evaluate firming.1 start hnext
    cases joined with
    | none => exact isFirm_of_evaluateBars firming.2 hmiddle (by simpa using hfirm) h
    | some before =>
      obtain ⟨made, last, hmade, h⟩ := Gives.bind h
      have joins := isFirm_of_join hmiddle (firm before rfl) hfirm hmade
      have hlast := (Referent.keeps_join env.world before next).of_gives hmiddle hmade
      exact isFirm_of_evaluateBars firming.2 hlast (by simpa using joins) h

end

private theorem any_isFirm_of_evaluateAll {several : List TypeExpr} {found : List Referent}
    (start : memory.IsSound) (firming : several.any env.isFirming = true)
    (h : Gives (env.evaluateAll several) memory found after) : found.any Referent.isFirm = true := by
  induction several generalizing memory found after with
  | nil => cases firming
  | cons expr rest ih =>
    obtain ⟨first, middle, hfirst, h⟩ := Gives.bind h
    obtain ⟨others, _, hothers, h⟩ := Gives.bind h
    rw [(Gives.pure h).1]
    rw [List.any_cons, Bool.or_eq_true] at firming ⊢
    exact firming.imp (isFirm_of_evaluate · start hfirst)
      (ih ((env.keeps_evaluate expr).of_gives start hfirst) · hothers)

/-- What an opening expression denotes leaves its member in documents. -/
theorem yields_isOpen (opening : env.isOpening expr = true) : env.Yields expr Referent.isOpen := by
  intro memory d after start h
  have firm : env.isFirming expr = true → d.isOpen = true := fun firming =>
    Referent.isOpen_of_isFirm (isFirm_of_evaluate firming start h)
  cases expr with
  | subscript head args =>
    rw [isOpening] at opening
    split at opening
    · rename_i denotes
      obtain ⟨owner, _, denoting, rest⟩ := Gives.bind h
      obtain ⟨found, middle, hfound, applying⟩ := Gives.bind rest
      obtain ⟨denoted, rfl⟩ := denoting.of_liftM
      have hmiddle := ((env.keeps_evaluateAll args).of_gives start hfound).tells
      cases denotes.symm.trans denoted
      match found with
      | [arg] => exact ((Referent.Forms.optional env.world arg).tellsMarks_recalled hmiddle applying).1
      | [] | _ :: _ :: _ => cases applying
    · rename_i denotes
      obtain ⟨owner, _, denoting, rest⟩ := Gives.bind h
      obtain ⟨found, middle, hfound, applying⟩ := Gives.bind rest
      obtain ⟨denoted, rfl⟩ := denoting.of_liftM
      have hmiddle := ((env.keeps_evaluateAll args).of_gives start hfound).tells
      cases denotes.symm.trans denoted
      exact (Referent.tellsMarks_of_makeUnion hmiddle applying).1
        (any_isFirm_of_evaluateAll start opening hfound)
    · exact firm opening
  | _ => exact firm opening

end Firming

/-- A string that denotes a type by itself can always be evaluated. -/
theorem evaluates_of_denoted (h : env.denoted? expr = some d) : env.Evaluates expr := fun memory start =>
  let ⟨after, gives, _⟩ := returns_evaluate h memory start.faithful
  ⟨d, after, gives⟩

end Environment

end Specimen
