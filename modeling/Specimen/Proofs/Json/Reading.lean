import Specimen.Proofs.Json.Scanning
import Specimen.Proofs.Json.Names
import Specimen.Proofs.Steps

/-! The number literals of documents. A document that is read has no literals but those of its text. -/
namespace Specimen.Json

namespace Value
variable {κ : Type}

mutual

/-- The number literals of a value, at any depth. -/
def literals : Value κ → List Text
  | .number literal => [literal]
  | .array items => literalsOfItems items
  | .object members => literalsOfMembers members
  | .null | .bool _ | .string _ => []

def literalsOfItems : List (Value κ) → List Text
  | [] => []
  | item :: rest => literals item ++ literalsOfItems rest

def literalsOfMembers : List (κ × Value κ) → List Text
  | [] => []
  | (_, value) :: rest => literals value ++ literalsOfMembers rest

end

theorem mem_literalsOfItems {literal : Text} {items : List (Value κ)} :
    literal ∈ literalsOfItems items ↔ ∃ item ∈ items, literal ∈ item.literals := by
  induction items with
  | nil => simp [literalsOfItems]
  | cons item rest ih => simp [literalsOfItems, ih]

theorem mem_literalsOfMembers {literal : Text} {members : List (κ × Value κ)} :
    literal ∈ literalsOfMembers members ↔ ∃ member ∈ members, literal ∈ member.2.literals := by
  induction members with
  | nil => simp [literalsOfMembers]
  | cons member rest ih => simp [literalsOfMembers, ih]

mutual

private theorem literals_dedupe : ∀ document : Document, document.dedupe.literals ⊆ document.literals
  | .array items => by
    rw [dedupe, literals, literals]
    exact literals_dedupeItems items
  | .object members => by
    rw [dedupe, literals, literals]
    intro literal h
    obtain ⟨member, hm, h⟩ := mem_literalsOfMembers.mp h
    exact literals_dedupeMembers members (mem_literalsOfMembers.mpr ⟨member, mem_of_mem_collapse hm, h⟩)
  | .null | .bool _ | .number _ | .string _ => by simp [dedupe]

private theorem literals_dedupeItems : ∀ items : List Document,
    literalsOfItems (dedupeItems items) ⊆ literalsOfItems items
  | [] => by simp [dedupeItems]
  | item :: rest => List.append_subset.mpr
    ⟨fun _ h => List.mem_append_left _ (literals_dedupe item h),
      fun _ h => List.mem_append_right _ (literals_dedupeItems rest h)⟩

private theorem literals_dedupeMembers : ∀ members : List (Text × Document),
    literalsOfMembers (dedupeMembers members) ⊆ literalsOfMembers members
  | [] => by simp [dedupeMembers]
  | (_, value) :: rest => List.append_subset.mpr
    ⟨fun _ h => List.mem_append_left _ (literals_dedupe value h),
      fun _ h => List.mem_append_right _ (literals_dedupeMembers rest h)⟩

end

end Value

namespace Reader

section Literals

/-- The number literals that an open container holds. -/
def Frame.literals : Frame → List Text
  | .array items => Value.literalsOfItems items
  | .object members | .member members _ => Value.literalsOfMembers members

/-- The number literals that the machine has read. -/
def State.literals (state : State) : List Text :=
  state.stack.flatMap Frame.literals ++
    match state.expected with
    | .nothing document => document.literals
    | _ => []

private theorem literals_finish (value : Document) (stack : List Frame) :
    (finish value stack).literals ⊆ value.literals ++ stack.flatMap Frame.literals := by
  intro literal h
  match stack with
  | [] => simpa [finish, State.literals] using h
  | .array items :: rest =>
    simpa [finish, State.literals, Frame.literals, Value.literalsOfItems] using h
  | .object members :: rest =>
    simp_all [finish, State.literals, Frame.literals]
  | .member members name :: rest =>
    simpa [finish, State.literals, Frame.literals, Value.literalsOfMembers] using h

private theorem literals_close (stack : List Frame) : (close stack).literals ⊆ stack.flatMap Frame.literals := by
  intro literal h
  match stack with
  | [] => simp [close, State.literals] at h
  | .array items :: rest =>
    have := literals_finish _ _ h
    simpa [Frame.literals, Value.literals, Value.mem_literalsOfItems] using this
  | .object members :: rest =>
    have := literals_finish _ _ h
    simpa [Frame.literals, Value.literals, Value.mem_literalsOfMembers] using this
  | .member members name :: rest => simpa [close, State.literals] using h

/-- The number literal of a token. -/
def literalsOf : Token → List Text
  | .number literal _ => [literal]
  | _ => []

variable {limits : ReadLimits} {state next : State} {stack : List Frame} {token : Located}

private theorem literals_beginValue (h : beginValue limits stack token = .ok next) :
    next.literals ⊆ literalsOf token.token ++ stack.flatMap Frame.literals := by
  unfold beginValue at h
  split at h
  case h_4 literal plain ht =>
    rw [ht]
    split at h
    · split at h
      · cases h
      · cases h
        exact literals_finish _ _
    · cases h
      exact literals_finish _ _
  case h_5 | h_6 =>
    split at h
    · cases h
    · cases h
      intro literal hl
      simp_all [State.literals, Frame.literals, Value.literalsOfItems, Value.literalsOfMembers]
  case h_7 | h_8 => cases h
  all_goals
    cases h
    exact fun _ hl => List.mem_append_right _ (literals_finish _ _ hl)

private theorem literals_beginName (h : beginName stack token = .ok next) :
    next.literals ⊆ stack.flatMap Frame.literals := by
  unfold beginName at h
  split at h <;> cases h
  simp [State.literals, Frame.literals]

private theorem literals_separate (h : separate stack token = .ok next) :
    next.literals ⊆ stack.flatMap Frame.literals := by
  unfold separate at h
  split at h <;> cases h
  · simp [State.literals]
  · simp [State.literals]
  · exact literals_close _
  · exact literals_close _

/-- A step reads no literal but that of its token. -/
private theorem literals_step (h : step limits state token = .ok next) :
    next.literals ⊆ literalsOf token.token ++ state.literals := by
  have inside : state.stack.flatMap Frame.literals ⊆ state.literals := fun _ hl => List.mem_append_left _ hl
  have value {next : State} (h : beginValue limits state.stack token = .ok next) :
      next.literals ⊆ literalsOf token.token ++ state.literals := fun _ hl =>
    (List.mem_append.mp (literals_beginValue h hl)).elim (List.mem_append_left _)
      (List.mem_append_right _ <| inside ·)
  have kept {next : State} (h : next.literals ⊆ state.stack.flatMap Frame.literals) :
      next.literals ⊆ literalsOf token.token ++ state.literals :=
    fun _ hl => List.mem_append_right _ (inside (h hl))
  unfold step at h
  split at h
  case h_1 => exact value h
  case h_2 =>
    split at h
    · cases h
      exact kept (literals_close _)
    · exact value h
  case h_3 => exact kept (literals_beginName h)
  case h_4 =>
    split at h
    · cases h
      exact kept (literals_close _)
    · exact kept (literals_beginName h)
  case h_5 =>
    split at h
    · cases h
      exact kept (by simp [State.literals])
    · cases h
  case h_6 => exact kept (literals_separate h)
  case h_7 => cases h

/-- A document that is read has no literals but those of the tokens. -/
private theorem literals_run {stop : Nat} {tokens : List Located} {document : Document}
    (h : run limits stop state tokens = .ok document) :
    document.literals ⊆ tokens.flatMap (literalsOf ·.token) ++ state.literals := by
  induction tokens generalizing state with
  | nil =>
    rw [run] at h
    split at h
    · rename_i hexpected
      cases h
      intro literal hl
      simp [State.literals, hexpected, hl]
    · cases h
  | cons token rest ih =>
    rw [run] at h
    obtain ⟨next, hstep, hrest⟩ := ok_of_bind h
    intro literal hl
    have := ih hrest hl
    rw [List.flatMap_cons, List.append_assoc]
    rcases List.mem_append.mp (ih hrest hl) with hl | hl
    · simp [hl]
    · have := literals_step hstep hl
      simp_all
      tauto

end Literals

end Reader

/-- The literals of a parsed document are constants or literals. -/
theorem parse_literals {text : Text} {document : Document} (h : parse text = .ok document) :
    ∀ literal ∈ document.literals, IsNumber literal := by
  intro literal hl
  obtain ⟨parsed, hread, -, rfl⟩ := exists_read_of_parse h
  rw [read] at hread
  split at hread
  · cases hread
  · rcases List.mem_append.mp (Reader.literals_run hread (Value.literals_dedupe _ hl)) with hl | hl
    · obtain ⟨located, hlocated, hl⟩ := List.mem_flatMap.mp hl
      unfold Reader.literalsOf at hl
      split at hl
      · rename_i plain ht
        rw [List.mem_singleton.mp hl]
        exact (Token.isNumberToken_of_mem_scanFrom located hlocated ht).isNumber
      · cases hl
    · cases hl

end Specimen.Json
