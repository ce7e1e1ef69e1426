import Specimen.Proofs.Loading.Order

/-! Creating a class keeps the orders of all classes: what its body binds is known, so its bases are, and the merge of
their orders places it. -/
namespace Specimen
variable {world after : World} {frame : Frame} {body result : Body} {count : Nat} {name : Text}
  {value : ClassAttribute} {c : ClassRef}

section Bodies

private theorem Enumeration.isScoped_bind {className : Text} {table : MemberTable} (scope : body.IsScoped count)
    (known : value.referent.IsKnown count)
    (h : Enumeration.bind world className body table name value = .ok result) : result.IsScoped count := by
  have bound (name : Text) : (body.bind name value).IsScoped count := scope.bind known
  rw [Enumeration.bind] at h
  dsimp only at h
  split at h
  · cases h
    exact bound _
  · split at h
    · cases h
    · split at h
      · obtain ⟨items, -, h⟩ := ok_of_bind h
        obtain ⟨-, -, h⟩ := ok_of_bind h
        dsimp only at h
        split at h
        · cases h
          have listed : (body.bind ignoreName (.plain (.data (.list items)))).IsScoped count := scope.bind trivial
          exact ⟨listed.known, listed.distinct⟩
        · cases h
      · cases h
        exact bound _
  · cases h
    exact bound _
  · split at h
    · cases h
    · split at h
      · cases h
        exact bound _
      · split at h
        · cases h
        · cases h
          exact ⟨(bound name).known, (bound name).distinct⟩

open Loading in
private theorem Loading.isScoped_assign (scope : body.IsScoped count)
    (h : assign frame world body name value = .ok result)
    (known : value.referent.IsKnown count) : result.IsScoped count := by
  have settled (bound : Body) (scope : bound.IsScoped count) :
      (if frame.bindingName name = annotationsName then replaceAnnotations bound value else bound).IsScoped count := by
    split
    · exact ⟨scope.known, scope.distinct⟩
    · exact scope
  rw [assign] at h
  dsimp only at h
  split at h
  · obtain ⟨bound, binds, ⟨⟩⟩ := ok_of_bind h
    exact settled bound (Enumeration.isScoped_bind scope known binds)
  · cases h
    exact settled _ (scope.bind known)

private theorem Body.isScoped_annotate {written : Referent} (scope : body.IsScoped count)
    (h : body.annotate world name written = .ok result) : result.IsScoped count := by
  rw [Body.annotate] at h
  split at h
  · cases h
    exact ⟨scope.known, scope.distinct⟩
  · cases h
  · cases h

private theorem Enumeration.isScoped_withoutIgnored (scope : body.IsScoped count)
    (h : Enumeration.withoutIgnored body = .ok result) : result.IsScoped count := by
  rw [Enumeration.withoutIgnored] at h
  split at h
  · cases h
    exact scope
  · dsimp only at h
    split at h
    · cases h
    · cases h
      exact scope.without _

private theorem Loading.isScoped_takeQualname {qualname : Text} (scope : body.IsScoped count)
    (h : Loading.takeQualname frame world body = .ok (qualname, result)) : result.IsScoped count := by
  rw [Loading.takeQualname] at h
  split at h
  · cases h
    exact scope.without _
  · cases h
  · cases h
    exact scope.without _

private theorem Loading.isScoped_bindPlaces (scope : body.IsScoped count) (names : List Text) :
    (Loading.bindPlaces body names).IsScoped count := by
  rw [Loading.bindPlaces]
  induction names generalizing body with
  | nil => exact scope
  | cons name rest ih => exact ih (scope.bind trivial)

/-- The members of an enumeration are bound as objects of it. -/
private theorem Enumeration.Draft.isScoped_settled {draft : Enumeration.Draft} (scope : draft.body.IsScoped count)
    (c : ClassRef) (entries : List Enumeration.Draft.Entry) : (draft.settled c entries).IsScoped count := by
  rw [settled]
  have start := scope.without [orderName]
  generalize draft.body.without [orderName] = kept at start
  induction entries generalizing kept with
  | nil => exact start
  | cons entry rest ih =>
    refine ih _ ?_
    cases entry <;> exact start.bind trivial

private theorem Loading.isScoped_finishEnumeration {draft : Enumeration.Draft} {heritage : Heritage}
    {info : EnumerationInfo}
    (scope : draft.body.IsScoped count) (h : Loading.finishEnumeration draft heritage c = .ok (info, result)) :
    result.IsScoped count := by
  rw [Loading.finishEnumeration] at h
  obtain ⟨entries, -, h⟩ := ok_of_bind h
  obtain ⟨-, -, h⟩ := ok_of_bind h
  dsimp only at h
  split at h
  · cases h
  · obtain ⟨-, -, ⟨⟩⟩ := ok_of_bind h
    exact Enumeration.Draft.isScoped_settled scope c entries

private theorem Loading.isKnown_decorate {decorator : Referent} {type : Option Referent} {readable : Bool}
    (h : Loading.decorate frame world decorator type readable = .ok value) : value.referent.IsKnown count := by
  rw [Loading.decorate.eq_def] at h
  split at h
  · cases h
    trivial
  · split at h
    · cases h
      trivial
    · cases h
  · cases h

end Bodies

namespace Loading

/-- What the merge of the orders of known bases gives stands above a class in its place. -/
private theorem isPlaced_of_bases {bases ancestors : List ClassRef} {info : ClassInfo} (ordered : world.IsOrdered)
    (known : ∀ base ∈ bases, base.IsKnown world.classes.length)
    (merged : Linearization.ofBases world bases = .ok ancestors) (same : info.ancestors = ancestors)
    (scope : (⟨info.annotations, info.attributes, none⟩ : Body).IsScoped world.classes.length)
    (fields : ∀ fields, info.fields = some fields →
      world.ExtendsFields ancestors (info.annotations.entries.map (·.1)) (fields.map (·.name))) :
    world.IsPlaced world.classes.length info := by
  subst same
  obtain ⟨orders, -, nodup, from'⟩ := World.ofBases_spec merged
  refine ⟨scope.known, scope.distinct, fun k hk => ?_, nodup, fun k hk => ?_, fields⟩
  · obtain ⟨base, hb, within⟩ := from' k hk
    exact ordered.isScoped.isKnown_of_mem_order (known base hb) k within
  · obtain ⟨base, hb, within⟩ := from' k hk
    exact (ordered.sublist within).trans (orders base hb)

section Steps
variable {α β : Type} {post : α → World → Prop} {last : β → World → Prop} {step : Loader α} {next : α → Loader β}

/-- A step leaves a world with ordered classes, none of them lost, whether it succeeds or fails, and something holds
of what it gives. -/
structure Leads (step : Loader α) (world : World) (post : α → World → Prop) : Prop where
  ordered : (step.run.run world).2.IsOrdered
  grown : world.classes.length ≤ (step.run.run world).2.classes.length
  given : ∀ value after, Gives step world value after → post value after

private theorem leads_pure {value : α} (ordered : world.IsOrdered) (h : post value world) :
    Leads (pure value) world post :=
  ⟨ordered, Nat.le_refl _, fun _ _ gives => by
    obtain ⟨rfl, rfl⟩ := gives.pure
    exact h⟩

private theorem leads_throw (trouble : Trouble) (ordered : world.IsOrdered) : Leads (throw trouble) world post :=
  ⟨ordered, Nat.le_refl _, fun _ _ gives => nomatch gives⟩

private theorem leads_lift {outcome : Except Trouble α} (ordered : world.IsOrdered)
    (h : ∀ value, outcome = .ok value → post value world) : Leads (lift outcome) world post :=
  ⟨ordered, Nat.le_refl _, fun _ _ gives => by
    obtain ⟨given, rfl⟩ := gives.lift
    exact h _ given⟩

private theorem leads_lift_bind {outcome : Except Trouble α} (ordered : world.IsOrdered)
    (h : ∀ value, outcome = .ok value → Leads (next value) world last) : Leads (lift outcome >>= next) world last := by
  cases outcome with
  | error trouble => exact leads_throw trouble ordered
  | ok value => exact h value rfl

private theorem leads_get_bind {next : World → Loader β} (h : Leads (next world) world last) :
    Leads (get >>= next) world last := ⟨h.ordered, h.grown, h.given⟩

theorem Leads.bind (h : Leads step world post)
    (hnext : ∀ value middle, post value middle → middle.IsOrdered → world.classes.length ≤ middle.classes.length →
      Leads (next value) middle last) : Leads (step >>= next) world last := by
  cases hrun : step.run.run world with
  | mk outcome middle =>
    have ordered := h.ordered
    have grown := h.grown
    rw [hrun] at ordered grown
    cases outcome with
    | error trouble =>
      have failed : (step >>= next).run.run world = (.error trouble, middle) := run_bind_error hrun
      exact ⟨failed ▸ ordered, failed ▸ grown, fun _ _ gives => nomatch failed.symm.trans gives⟩
    | ok value =>
      have rest := hnext value middle (h.given value middle hrun) ordered grown
      have ran : (step >>= next).run.run world = (next value).run.run middle := run_bind hrun
      exact ⟨ran ▸ rest.ordered, Nat.le_trans grown (ran ▸ rest.grown),
        fun value after gives => rest.given value after (ran.symm.trans gives)⟩

end Steps

section Creation
variable {isDataclass : Bool} {heritage : Heritage} {basis : Option ClassRef}

/-- A class that is made of a body is put behind those that there are, in its place. -/
private theorem leads_finishClass (ordered : world.IsOrdered) (scope : body.IsScoped world.classes.length)
    (bases : ∀ base ∈ heritage.bases, base.IsKnown world.classes.length) :
    Leads (finishClass frame isDataclass heritage basis body) world fun c after => c.IsKnown after.classes.length := by
  have known : ∀ base ∈ if heritage.bases.isEmpty then [.standard .object] else heritage.bases,
      base.IsKnown world.classes.length := by
    split
    · exact fun base hb => List.mem_singleton.mp hb ▸ trivial
    · exact bases
  have started : (if heritage.isRewritten then body.bind writtenBasesName (.plain (.data (.tuple [])))
      else body).IsScoped world.classes.length := by
    split
    · exact scope.bind trivial
    · exact scope
  have longer (info : ClassInfo) : world.classes.length < (world.add info).classes.length := by simp
  have added {info : ClassInfo} (placed : world.IsPlaced world.classes.length info) :
      Leads (do set (world.add info); return ClassRef.declared world.classes.length) world
        fun c after => c.IsKnown after.classes.length :=
    ⟨ordered.add placed, Nat.le_of_lt (longer info), fun c after gives => by
      obtain ⟨_, _, sets, returns⟩ := gives.bind
      obtain ⟨rfl, rfl⟩ := returns.pure
      cases sets.set
      exact longer info⟩
  rw [finishClass]
  split
  · exact leads_throw _ ordered
  refine leads_get_bind (leads_lift_bind ordered fun kept ignored => leads_lift_bind ordered fun laid _ => ?_)
  obtain ⟨layout, places⟩ := laid
  refine leads_lift_bind ordered fun taken took => ?_
  obtain ⟨qualname, named⟩ := taken
  refine leads_lift_bind ordered fun _ _ => leads_lift_bind ordered fun ancestors merged => ?_
  have scope := isScoped_bindPlaces
    (isScoped_takeQualname (Enumeration.isScoped_withoutIgnored started ignored) took) places
  extract_lets finish draft
  have settled (enumeration : Option EnumerationInfo) (body : Body) (scope : body.IsScoped world.classes.length) :
      Leads (finish (enumeration, body)) world fun c after => c.IsKnown after.classes.length := by
    dsimp only [finish]
    split
    · refine leads_lift_bind ordered fun made makes => ?_
      obtain ⟨fields, settled⟩ := made
      obtain ⟨scope, names⟩ := Dataclass.make_names scope makes
      exact added (isPlaced_of_bases ordered known merged rfl ⟨scope.known, scope.distinct⟩
        fun _ same => Option.some.inj same ▸ names)
    · exact added (isPlaced_of_bases ordered known merged rfl ⟨scope.known, scope.distinct⟩
        fun _ absent => by cases absent)
  split
  · refine leads_lift_bind ordered fun finished finishes => ?_
    obtain ⟨info, content⟩ := finished
    exact settled (some info) content (isScoped_finishEnumeration scope finishes)
  · exact leads_lift_bind ordered fun _ _ => settled none _ scope

private theorem leads_writtenType {env : Environment} {expr : TypeExpr} (ordered : world.IsOrdered) :
    Leads (writtenType frame env expr) world fun _ _ => True := by
  rw [writtenType]
  split
  · exact leads_pure ordered trivial
  · exact ⟨ordered.of_classes rfl ordered.names, Nat.le_refl _, fun _ _ _ => trivial⟩

/-- The bases of a declaration are known where the names around it are. -/
private theorem isKnown_bases {layers : List Bindings} {moduleName : Text} {names : List Text}
    (ordered : world.IsOrdered)
    (known : ∀ layer ∈ layers, AllKnown world.classes.length layer)
    (inherits : Heritage.ofNames ⟨world, layers⟩ moduleName names = .ok heritage) :
    ∀ base ∈ heritage.bases, base.IsKnown world.classes.length :=
  Heritage.isKnown_ofNames ordered.isScoped known inherits

private theorem isScoped_start (frame : Frame) (isEnumeration : Bool) (count : Nat) :
    (frame.start isEnumeration).IsScoped count := by
  refine ⟨fun entry he => ?_, ?_⟩
  · rcases List.mem_pair.mp he with rfl | rfl <;> trivial
  · exact (by decide : [Body.moduleKey, Body.qualnameKey].Nodup)

mutual

/-- Each member leaves a body that binds known classes, among them those that it declares itself. -/
private theorem leads_runMember {world : World} {frame : Frame} {body : Body} (ordered : world.IsOrdered)
    (globals : AllKnown world.classes.length frame.globals) (scope : body.IsScoped world.classes.length) : ∀ member,
    Leads (runMember frame body member) world fun result after => result.IsScoped after.classes.length
  | .field name type value => by
    have annotated (body : Body) (scope : body.IsScoped world.classes.length) : Leads (do
        let denoted ← writtenType frame (frame.environment world body) type
        lift (body.annotate (← get) (frame.bindingName name) denoted)) world
          fun result after => result.IsScoped after.classes.length :=
      (leads_writtenType ordered).bind fun _ middle _ ordered grown => leads_get_bind
        (leads_lift ordered fun _ annotates => Body.isScoped_annotate (scope.mono grown) annotates)
    rw [runMember]
    refine leads_get_bind ?_
    cases value with
    | absent => exact annotated body scope
    | specified =>
      exact leads_lift_bind ordered fun _ _ => leads_lift_bind ordered fun bound assigns =>
        annotated bound (isScoped_assign scope assigns trivial)
    | value =>
      exact leads_lift_bind ordered fun bound assigns => annotated bound (isScoped_assign scope assigns trivial)
  | .property name type readable => by
    have bound (decorator : Referent) (denoted : Option Referent) {middle : World} (ordered : middle.IsOrdered)
        (scope : body.IsScoped middle.classes.length) : Leads (do
        lift (assign frame world body name (← lift (decorate frame world decorator denoted readable)))) middle
          fun result after => result.IsScoped after.classes.length :=
      leads_lift_bind ordered fun made decorates => leads_lift ordered fun _ assigns =>
        isScoped_assign scope assigns (isKnown_decorate decorates)
    rw [runMember]
    refine leads_get_bind (leads_lift_bind ordered fun decorator _ => ?_)
    cases type with
    | none => exact bound decorator none ordered scope
    | some expr =>
      have written : Leads ((writtenType frame (frame.environment world body) expr).map some) world fun _ _ => True :=
        (leads_writtenType ordered).bind fun _ _ _ ordered _ => leads_pure ordered trivial
      exact written.bind fun _ _ _ ordered grown => bound decorator _ ordered (scope.mono grown)
  | .constant name value => by
    rw [runMember]
    exact leads_get_bind (leads_lift ordered fun _ assigns => isScoped_assign scope assigns trivial)
  | .method name => by
    rw [runMember]
    exact leads_get_bind (leads_lift ordered fun _ assigns => isScoped_assign scope assigns trivial)
  | .nested name isDataclass bases members => by
    rw [runMember]
    refine leads_get_bind (leads_lift_bind ordered fun _ _ => leads_lift_bind ordered fun heritage inherits =>
      leads_lift_bind ordered fun basis _ => ?_)
    have known := isKnown_bases ordered
      (List.forall_mem_cons.mpr ⟨scope.allKnown_names, List.forall_mem_singleton.mpr globals⟩) inherits
    extract_lets inner
    have around : AllKnown world.classes.length inner.globals := globals
    refine (leads_runMembers ordered around (isScoped_start _ _ _) members).bind fun _ _ content ordered' grown => ?_
    refine (leads_finishClass ordered' content fun base hb => (known base hb).mono grown).bind
      fun c last declared ordered'' grown' => leads_get_bind (leads_lift ordered'' fun _ assigns => ?_)
    exact isScoped_assign (scope.mono (Nat.le_trans grown grown')) assigns declared

private theorem leads_runMembers {world : World} {frame : Frame} {body : Body} (ordered : world.IsOrdered)
    (globals : AllKnown world.classes.length frame.globals) (scope : body.IsScoped world.classes.length) : ∀ members,
    Leads (runMembers frame body members) world fun result after => result.IsScoped after.classes.length
  | [] => leads_pure ordered scope
  | member :: rest => by
    rw [runMembers]
    exact (leads_runMember ordered globals scope member).bind fun _ _ scope ordered grown =>
      leads_runMembers ordered (globals.mono grown) scope rest

end

private theorem leads_createClass {moduleName : Text} {postponed : Bool} {source : ClassSource}
    (ordered : world.IsOrdered) :
    Leads (createClass moduleName postponed source) world fun c after => c.IsKnown after.classes.length := by
  have globals := ordered.isScoped.allKnown_namesOf moduleName
  rw [createClass]
  refine leads_get_bind (leads_lift_bind ordered fun _ _ => leads_lift_bind ordered fun heritage inherits =>
    leads_lift_bind ordered fun basis _ => ?_)
  have known := isKnown_bases ordered (List.forall_mem_singleton.mpr globals) inherits
  refine (leads_runMembers ordered globals (isScoped_start _ _ _) source.members).bind
    fun content middle scope ordered' grown => ?_
  exact leads_finishClass ordered' scope fun base hb => (known base hb).mono grown

/-- Whatever is loaded, classes stay ordered. -/
theorem isKept_isOrdered : IsKept World.IsOrdered where
  declared moduleName postponed source world ordered := by
    obtain ⟨ordered, -, known⟩ := leads_createClass ordered
    cases hrun : (createClass moduleName postponed source).run.run world with
    | mk outcome middle =>
      rw [hrun] at ordered
      cases outcome with
      | error trouble =>
        have failed : ((createClass moduleName postponed source).adapt Halt.trouble).run.run world =
            (.error (.trouble trouble), middle) := run_adapt_error hrun
        rw [run_bind_error failed]
        exact ordered
      | ok c =>
        rw [run_bind (Gives.adapt hrun)]
        exact ordered.bindName moduleName source.name (known c middle hrun)
  bound world moduleName name d known ordered := ordered.bindName moduleName name (known.mono (Nat.zero_le _))
  completed world name ordered := ordered.markComplete name

end Creation

end Loading

end Specimen
