import Specimen.Proofs.Json.Parts

/-! Decoding by recursive descent. What is made of a text is made by the hooks of a decoder, one for each kind of
value; the machine that reads documents goes through the values in the same order, and decoders whose hooks make
related values make related values of every text. -/
namespace Specimen.Json
open Reader (Frame Expected run step finish)

/-- What a decoder makes of each kind of value; it may refuse a number. -/
structure Hooks (α : Type) where
  null : α
  bool : Bool → α
  number : Text → Bool → Option α
  string : Text → α
  array : List α → α
  object : List (Text × α) → α

/-- What makes something of the first of some tokens, and gives the others back. -/
abbrev Descent (α : Type) := List Token → Option (α × List Token)

namespace Descent
variable {α : Type}

/-- Parts with commas between them up to a closing token, at most so many. -/
def parts (closing : Token) (part : Descent α) : Nat → Descent (List α)
  | 0, _ => none
  | most + 1, tokens => do
    let (first, after) ← part tokens
    match after with
    | .comma :: rest => do
      let (others, rest) ← parts closing part most rest
      return (first :: others, rest)
    | token :: rest => if token = closing then return ([first], rest) else none
    | [] => none

/-- Parts up to a closing token, or none. -/
def container (closing : Token) (part : Descent α) : Descent (List α)
  | [] => none
  | token :: rest =>
    if token = closing then return ([], rest) else parts closing part (rest.length + 1) (token :: rest)

/-- A name with its value. -/
def member (value : Descent α) : Descent (Text × α)
  | .string name :: .colon :: tokens => do
    let (value, rest) ← value tokens
    return ((name, value), rest)
  | _ => none

end Descent

namespace Hooks
variable {α : Type}

/-- A value, with at most so many containers inside each other. -/
def value (hooks : Hooks α) : Nat → Descent α
  | 0, _ => none
  | nesting + 1, token :: rest =>
    match token with
    | .null => return (hooks.null, rest)
    | .bool truth => return (hooks.bool truth, rest)
    | .number literal plain => do return (← hooks.number literal plain, rest)
    | .string text => return (hooks.string text, rest)
    | .openArray => do
      let (items, rest) ← Descent.container .closeArray (value hooks nesting) rest
      return (hooks.array items, rest)
    | .openObject => do
      let (members, rest) ← Descent.container .closeObject (.member (value hooks nesting)) rest
      return (hooks.object members, rest)
    | _ => none
  | _ + 1, [] => none

/-- What a decoder makes of a text as a whole. -/
def decode (hooks : Hooks α) (text : Text) : Option α :=
  let tokens := (Token.scan text).map (·.token)
  if text.head? = some 0xFEFF then none
  else match hooks.value tokens.length tokens with
    | some (made, []) => some made
    | _ => none

/-- The decoder that makes documents, names repeated as written. -/
def document : Hooks Document where
  null := .null
  bool := .bool
  number literal _ := some (.number literal)
  string := .string
  array := .array
  object := .object

end Hooks

section Machine
variable {α : Type} {limits : ReadLimits} {stop nesting : Nat} {stack : List Frame} {result : Document}
  {tokens : List Located}

/-- The tokens of some located ones. -/
def bare (tokens : List Located) : List Token := tokens.map (·.token)

@[simp] theorem bare_cons (token : Located) (rest : List Located) :
    bare (token :: rest) = token.token :: bare rest := rfl

@[simp] theorem length_bare (tokens : List Located) : (bare tokens).length = tokens.length := List.length_map _

private theorem exists_step {state : Reader.State} (h : run limits stop state tokens = .ok result)
    (open' : ∀ document, state.expected ≠ .nothing document) :
    ∃ token rest next, tokens = token :: rest ∧ step limits state token = .ok next ∧
      run limits stop next rest = .ok result := by
  cases tokens with
  | nil =>
    rw [run] at h
    split at h
    · rename_i document ended
      exact absurd ended (open' document)
    · cases h
  | cons token rest =>
    obtain ⟨next, hstep, hrest⟩ := ok_of_bind h
    exact ⟨token, rest, next, rfl, hstep, hrest⟩

/-- A descent takes the tokens that the machine takes from one state, and the machine goes on in another. -/
def Follows (limits : ReadLimits) (descent : Descent α) (bound : Nat) (before : Reader.State)
    (after : α → Reader.State) : Prop :=
  ∀ ⦃tokens stop result⦄, tokens.length ≤ bound → run limits stop before tokens = .ok result →
    ∃ made rest, descent (bare tokens) = some (made, bare rest) ∧ rest.length < tokens.length ∧
      run limits stop (after made) rest = .ok result

/-- What a step inside a container tells of its token. -/
structure Container.Tells (container : Container α) : Prop where
  separator : ∀ {limits done stack token next},
    step limits ⟨container.frame done :: stack, .separator⟩ token = .ok next →
      token.token = .comma ∧ next = ⟨container.frame done :: stack, container.next⟩ ∨
      token.token = container.closed ∧ next = finish (container.whole done.reverse) stack
  first : ∀ limits stack {token}, token.token ≠ container.closed →
    step limits ⟨container.frame [] :: stack, container.first⟩ token =
      step limits ⟨container.frame [] :: stack, container.next⟩ token
  closed_ne_comma : container.closed ≠ .comma
  first_ne : ∀ document, container.first ≠ .nothing document

private theorem Container.tells_array : Container.array.Tells where
  separator h := by
    simp only [Container.array, step, Reader.separate] at h
    split at h <;> cases h <;> simp_all [Container.array, Reader.close]
  first _ _ _ other := if_neg other
  closed_ne_comma := by decide
  first_ne := nofun

private theorem Container.tells_object : Container.object.Tells where
  separator h := by
    simp only [Container.object, step, Reader.separate] at h
    split at h <;> cases h <;> simp_all [Container.object, Reader.close]
  first _ _ _ other := if_neg other
  closed_ne_comma := by decide
  first_ne := nofun

section Parts
variable {container : Container α} {part : Descent α} {bound : Nat} {done : List α}

/-- Where a part is taken as the machine takes it, the parts up to the container's end are. -/
private theorem follows_parts (tells : container.Tells)
    (h : ∀ done, Follows limits part bound ⟨container.frame done :: stack, container.next⟩
      fun made => ⟨container.frame (made :: done) :: stack, .separator⟩) {most : Nat} (hmost : most ≤ bound)
    (done : List α) :
    Follows limits (.parts container.closed part most) most ⟨container.frame done :: stack, container.next⟩
      fun made => finish (container.whole (done.reverse ++ made)) stack := by
  induction most generalizing done with
  | zero =>
    intro tokens stop result short hrun
    obtain ⟨_, rest, -, shorter, -⟩ := h done (short.trans hmost) hrun
    omega
  | succ most ih =>
    intro tokens stop result short hrun
    obtain ⟨first, after, hpart, shorter, hrun⟩ := h done (short.trans hmost) hrun
    obtain ⟨token, rest, next, rfl, hstep, hrun⟩ := exists_step hrun nofun
    rw [List.length_cons] at shorter
    rcases tells.separator hstep with ⟨comma, rfl⟩ | ⟨closed, rfl⟩
    · obtain ⟨others, last, hothers, shortest, hrun⟩ :=
        ih ((Nat.le_succ most).trans hmost) (first :: done) (by omega) hrun
      refine ⟨first :: others, last, ?_, by omega, by simpa using hrun⟩
      rw [Descent.parts, hpart]
      simp [comma, hothers]
    · refine ⟨[first], rest, ?_, by omega, by simpa using hrun⟩
      rw [Descent.parts, hpart]
      simp [closed, tells.closed_ne_comma]

/-- Where a part is taken as the machine takes it, what a container holds is. -/
private theorem follows_container (tells : container.Tells)
    (h : ∀ done, Follows limits part bound ⟨container.frame done :: stack, container.next⟩
      fun made => ⟨container.frame (made :: done) :: stack, .separator⟩) :
    Follows limits (.container container.closed part) bound ⟨container.frame [] :: stack, container.first⟩
      fun made => finish (container.whole made) stack := by
  intro tokens stop result short hrun
  obtain ⟨token, rest, next, rfl, hstep, hrest⟩ := exists_step hrun tells.first_ne
  by_cases closed : token.token = container.closed
  · have step_closed := container.closesEmpty limits stack token.position
    rw [← closed, hstep] at step_closed
    cases step_closed
    exact ⟨[], rest, by simp [Descent.container, closed], Nat.lt_succ_self _, hrest⟩
  · have first : run limits stop ⟨container.frame [] :: stack, container.next⟩ (token :: rest) = .ok result := by
      rw [run, ← tells.first limits stack closed, hstep]
      exact hrest
    obtain ⟨made, last, hparts, shorter, hrun⟩ := follows_parts tells h short [] le_rfl first
    refine ⟨made, last, ?_, shorter, hrun⟩
    rw [bare_cons, Descent.container, if_neg closed, length_bare, ← bare_cons]
    exact hparts

end Parts

section Values
variable {bound : Nat}

/-- A name with its value is taken as the machine takes it, where values are. -/
private theorem follows_member {value : Descent Document}
    (h : ∀ stack, Follows limits value bound ⟨stack, .value⟩ (finish · stack)) (done : List (Text × Document)) :
    Follows limits (.member value) bound ⟨.object done :: stack, .name⟩
      fun made => ⟨.object (made :: done) :: stack, .separator⟩ := by
  intro tokens stop result short hrun
  obtain ⟨token, rest, next, rfl, hstep, hrun⟩ := exists_step hrun nofun
  simp only [step, Reader.beginName] at hstep
  split at hstep
  · rename_i name _ _ named same
    cases same
    cases hstep
    obtain ⟨colon, rest, next, rfl, hstep, hrun⟩ := exists_step hrun nofun
    simp only [step] at hstep
    split at hstep
    · rename_i hcolon
      cases hstep
      rw [List.length_cons, List.length_cons] at short
      obtain ⟨made, last, hvalue, shorter, hrun⟩ := h _ (by omega) hrun
      refine ⟨(name, made), last, ?_, by simp only [List.length_cons]; omega, hrun⟩
      simp [Descent.member, named, hcolon, hvalue]
    · cases hstep
  all_goals cases hstep

/-- The machine takes a value from the tokens that its decoder takes it from. -/
private theorem follows_value (nesting : Nat) (stack : List Frame) :
    Follows limits (Hooks.document.value nesting) nesting ⟨stack, .value⟩ (finish · stack) := by
  induction nesting generalizing stack with
  | zero =>
    intro tokens stop result short hrun
    obtain ⟨token, rest, _, rfl, -, -⟩ := exists_step hrun nofun
    exact absurd short (Nat.not_succ_le_zero _)
  | succ nesting ih =>
    intro tokens stop result short hrun
    obtain ⟨token, rest, next, rfl, hstep, hrun⟩ := exists_step hrun nofun
    have short : rest.length ≤ nesting := Nat.le_of_succ_le_succ short
    simp only [step, Reader.beginValue] at hstep
    split at hstep
    case h_1 ht | h_2 ht | h_3 ht =>
      cases hstep
      exact ⟨_, rest, by simp only [bare_cons, ht, Hooks.value]; rfl, Nat.lt_succ_self _, hrun⟩
    case h_4 ht =>
      refine ⟨_, rest, by simp only [bare_cons, ht, Hooks.value]; rfl, Nat.lt_succ_self _, ?_⟩
      split at hstep
      · split at hstep <;> cases hstep
        exact hrun
      · cases hstep
        exact hrun
    case h_5 ht =>
      split at hstep <;> cases hstep
      obtain ⟨items, last, hitems, shorter, hrun⟩ := follows_container Container.tells_array
        (fun done => ih (.array done :: stack)) short hrun
      refine ⟨.array items, last, ?_, shorter.trans (Nat.lt_succ_self _), hrun⟩
      simp only [bare_cons, ht, Hooks.value]
      rw [show Descent.container .closeArray _ _ = _ from hitems]
      rfl
    case h_6 ht =>
      split at hstep <;> cases hstep
      obtain ⟨members, last, hmembers, shorter, hrun⟩ := follows_container Container.tells_object
        (follows_member ih) short hrun
      refine ⟨.object members, last, ?_, shorter.trans (Nat.lt_succ_self _), hrun⟩
      simp only [bare_cons, ht, Hooks.value]
      rw [show Descent.container .closeObject _ _ = _ from hmembers]
      rfl
    all_goals cases hstep

/-- What is read is what the decoder of documents makes. -/
theorem decode_of_read {text : Text} (h : read limits text = .ok result) :
    Hooks.document.decode text = some result := by
  rw [read] at h
  split at h
  · cases h
  · rename_i mark
    obtain ⟨document, rest, hvalue, -, hrun⟩ :=
      follows_value (Token.scan text).length [] (Nat.le_refl _) h
    have ended : rest = [] ∧ document = result := by
      cases rest with
      | nil => exact ⟨rfl, Except.ok.inj hrun⟩
      | cons token more =>
        obtain ⟨next, hstep, -⟩ := ok_of_bind hrun
        cases hstep
    obtain ⟨rfl, rfl⟩ := ended
    simp only [Hooks.decode, if_neg mark, List.length_map]
    rw [show Hooks.value _ _ (List.map _ _) = _ from hvalue]
    rfl

end Values

end Machine

section Relations
variable {α β : Type} {made : α → β → Prop} {permits : Token → Prop}

/-- Of tokens that are all permitted, two descents take the same ones and make related things. -/
def Descent.Relates (made : α → β → Prop) (permits : Token → Prop) (descent : Descent α) (other : Descent β) :
    Prop :=
  ∀ ⦃tokens here rest⦄, (∀ token ∈ tokens, permits token) → descent tokens = some (here, rest) →
    ∃ there, other tokens = some (there, rest) ∧ made here there ∧ ∀ token ∈ rest, permits token

/-- Named things have the same name and are related. -/
structure Named {κ : Type} (made : α → β → Prop) (here : κ × α) (there : κ × β) : Prop where
  name : here.1 = there.1
  value : made here.2 there.2

/-- Decoders make related values of related parts, and of numbers that are permitted. -/
structure Hooks.Relates (made : α → β → Prop) (permits : Token → Prop) (hooks : Hooks α) (others : Hooks β) :
    Prop where
  null : made hooks.null others.null
  bool : ∀ truth, made (hooks.bool truth) (others.bool truth)
  number : ∀ {literal plain here}, permits (.number literal plain) → hooks.number literal plain = some here →
    ∃ there, others.number literal plain = some there ∧ made here there
  string : ∀ text, made (hooks.string text) (others.string text)
  array : ∀ {here there}, List.Forall₂ made here there → made (hooks.array here) (others.array there)
  object : ∀ {here there}, List.Forall₂ (Named made) here there →
    made (hooks.object here) (others.object there)

section Descents
variable {descent : Descent α} {other : Descent β} (h : descent.Relates made permits other)
include h

private theorem relates_parts (closing : Token) (most : Nat) :
    (Descent.parts closing descent most).Relates (List.Forall₂ made) permits (.parts closing other most) := by
  induction most with
  | zero => exact fun _ _ _ _ none => nomatch none
  | succ most ih =>
    intro tokens here rest permitted found
    rw [Descent.parts] at found
    obtain ⟨⟨first, after⟩, hfirst, found⟩ := Option.bind_eq_some_iff.mp found
    obtain ⟨second, hsecond, related, permitted⟩ := h permitted hfirst
    rw [Descent.parts, hsecond]
    simp only [Option.bind_eq_bind, Option.bind_some] at found ⊢
    split at found
    · obtain ⟨⟨more, last⟩, hmore, found⟩ := Option.bind_eq_some_iff.mp found
      cases found
      obtain ⟨others, hothers, relatedMore, permitted⟩ := ih (List.forall_mem_cons.mp permitted).2 hmore
      exact ⟨second :: others, by simp [hothers], .cons related relatedMore, permitted⟩
    · split at found
      · cases found
        rename_i closed
        exact ⟨[second], if_pos closed, .cons related .nil, (List.forall_mem_cons.mp permitted).2⟩
      · cases found
    · cases found

private theorem relates_container (closing : Token) :
    (Descent.container closing descent).Relates (List.Forall₂ made) permits (.container closing other) := by
  intro tokens here rest permitted found
  cases tokens with
  | nil => cases found
  | cons token after =>
    rw [Descent.container] at found ⊢
    split at found
    · cases found
      rename_i closed
      exact ⟨[], if_pos closed, .nil, (List.forall_mem_cons.mp permitted).2⟩
    · rename_i closed
      rw [if_neg closed]
      exact relates_parts h closing _ permitted found

private theorem relates_member :
    (Descent.member descent).Relates (Named made) permits (.member other) := by
  intro tokens here rest permitted found
  unfold Descent.member at found
  split at found
  · rename_i name after
    obtain ⟨⟨value, last⟩, hvalue, found⟩ := Option.bind_eq_some_iff.mp found
    cases found
    obtain ⟨second, hsecond, related, permitted⟩ :=
      h (List.forall_mem_cons.mp (List.forall_mem_cons.mp permitted).2).2 hvalue
    exact ⟨(name, second), by simp [Descent.member, hsecond], ⟨rfl, related⟩, permitted⟩
  · cases found

end Descents

/-- Decoders with related hooks make related values. -/
private theorem relates_value {hooks : Hooks α} {others : Hooks β} (h : hooks.Relates made permits others)
    (nesting : Nat) : (hooks.value nesting).Relates made permits (others.value nesting) := by
  induction nesting with
  | zero => exact fun _ _ _ _ none => nomatch none
  | succ nesting ih =>
    intro tokens here rest permitted found
    cases tokens with
    | nil => cases found
    | cons token after =>
      obtain ⟨first, behind⟩ := List.forall_mem_cons.mp permitted
      cases token with
      | null =>
        cases found
        exact ⟨_, rfl, h.null, behind⟩
      | bool truth =>
        cases found
        exact ⟨_, rfl, h.bool truth, behind⟩
      | string text =>
        cases found
        exact ⟨_, rfl, h.string text, behind⟩
      | number literal plain =>
        obtain ⟨number, hnumber, found⟩ := Option.bind_eq_some_iff.mp found
        cases found
        obtain ⟨there, hthere, related⟩ := h.number first hnumber
        exact ⟨there, by simp [Hooks.value, hthere], related, behind⟩
      | openArray =>
        obtain ⟨⟨items, last⟩, hitems, found⟩ := Option.bind_eq_some_iff.mp found
        cases found
        obtain ⟨there, hthere, related, permitted⟩ := relates_container ih .closeArray behind hitems
        exact ⟨_, by simp [Hooks.value, hthere], h.array related, permitted⟩
      | openObject =>
        obtain ⟨⟨members, last⟩, hmembers, found⟩ := Option.bind_eq_some_iff.mp found
        cases found
        obtain ⟨there, hthere, related, permitted⟩ :=
          relates_container (relates_member ih) .closeObject behind hmembers
        exact ⟨_, by simp [Hooks.value, hthere], h.object related, permitted⟩
      | _ => cases found

/-- Decoders with related hooks make related values of a text whose tokens are permitted. -/
theorem relates_decode {hooks : Hooks α} {others : Hooks β} (h : hooks.Relates made permits others) {text : Text}
    {here : α} (permitted : ∀ located ∈ Token.scan text, permits located.token)
    (found : hooks.decode text = some here) : ∃ there, others.decode text = some there ∧ made here there := by
  simp only [Hooks.decode] at found ⊢
  split at found
  · cases found
  · rename_i mark
    rw [if_neg mark]
    split at found
    · rename_i value hvalue
      cases found
      obtain ⟨there, hthere, related, -⟩ :=
        relates_value h _ (List.forall_mem_map.mpr permitted) hvalue
      exact ⟨there, by rw [hthere], related⟩
    · cases found

end Relations

end Specimen.Json
