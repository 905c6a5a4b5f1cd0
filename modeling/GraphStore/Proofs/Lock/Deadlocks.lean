import GraphStore.Proofs.Program.Sections
import GraphStore.Query.Execution

/-!
# Deadlocks

Several users of one registry acquire their resources one by one: any resources in sorted order, or
collections in the order of the collections.  The two orders disagree about the indexes, which come
before the nodes and the relationships by name and after them among the collections.  The users
cannot deadlock unless their calls lead in both directions.
-/

namespace GraphStore

/-! ## Orders of acquisition -/

namespace LockRegistry

/-- A call that acquires several resources. -/
inductive Call where
  /-- Acquire any resources. -/
  | many (resources : List String)
  /-- Acquire collections. -/
  | collections (resources : List String)
  deriving DecidableEq

/-- The order in which a call acquires its resources. -/
def Call.order : Call → List String
  | many resources => acquisitionOrder resources
  | collections resources => collectionOrder resources

/-- Whether a call acquires one resource before another one. -/
def Call.Before (call : Call) (first second : String) : Prop :=
  [first, second].Sublist call.order

theorem mem_insertOnce (text other : String) (texts : List String) :
    other ∈ insertOnce text texts ↔ other = text ∨ other ∈ texts := by
  induction texts with
  | nil => simp [insertOnce]
  | cons first rest ih =>
      unfold insertOnce
      split
      · simp
      · split
        · next same => simp [same]
        · simp only [List.mem_cons, ih]
          exact or_left_comm

theorem insertOnce_sorted {text : String} {texts : List String}
    (sorted : texts.Pairwise (· < ·)) : (insertOnce text texts).Pairwise (· < ·) := by
  induction texts with
  | nil => simp [insertOnce]
  | cons first rest ih =>
      obtain ⟨least, sortedRest⟩ := List.pairwise_cons.1 sorted
      unfold insertOnce
      split
      · next less =>
          refine List.pairwise_cons.2 ⟨fun other member => ?_, sorted⟩
          rcases List.mem_cons.1 member with rfl | member
          · exact less
          · exact String.lt_trans less (least other member)
      · split
        · exact sorted
        · next notLess notEqual =>
            refine List.pairwise_cons.2 ⟨fun other member => ?_, ih sortedRest⟩
            rcases (mem_insertOnce text other rest).1 member with rfl | member
            · grind
            · exact least other member

theorem mem_acquisitionOrder (resources : List String) (resource : String) :
    resource ∈ acquisitionOrder resources ↔ resource ∈ resources := by
  induction resources with
  | nil => simp [acquisitionOrder]
  | cons first rest ih =>
      rw [acquisitionOrder, List.foldr_cons, mem_insertOnce, List.mem_cons]
      exact or_congr_right ih

theorem acquisitionOrder_sorted (resources : List String) :
    (acquisitionOrder resources).Pairwise (· < ·) := by
  induction resources with
  | nil => exact List.Pairwise.nil
  | cons resource rest ih => exact insertOnce_sorted ih

theorem Call.order_nodup (call : Call) : call.order.Nodup := by
  cases call with
  | many resources =>
      refine (acquisitionOrder_sorted resources).imp ?_
      rintro first _ less rfl
      exact String.lt_irrefl first less
  | collections resources => exact List.Nodup.filter _ (by decide)

/-- Any resources are acquired in the order of their names. -/
theorem Call.Before.lt_of_many {resources : List String} {first second : String}
    (before : (many resources).Before first second) : first < second :=
  List.pairwise_pair.1 ((acquisitionOrder_sorted resources).sublist before)

/-- Collections are acquired in the order of their names, but for the indexes, which come last. -/
theorem Call.Before.cases_of_collections {resources : List String} {first second : String}
    (before : (collections resources).Before first second) :
    first < second ∨
      first ∈ [nodes, relationships] ∧ second = indexes ∧
        first ∈ resources ∧ indexes ∈ resources := by
  have fixed : LockRegistry.collections.Pairwise fun first second =>
      first < second ∨ first ∈ [nodes, relationships] ∧ second = indexes := by
    decide
  have asked : ∀ resource ∈ [first, second], resource ∈ resources := by
    intro resource member
    simpa using (List.mem_filter.1 (before.subset member)).2
  rcases List.pairwise_pair.1 (fixed.sublist (before.trans List.filter_sublist)) with
    less | ⟨member, rfl⟩
  · exact .inl less
  · exact .inr ⟨member, rfl, asked first (by simp), asked indexes (by simp)⟩

theorem Call.Before.not_reversed_of_collections {resources others : List String}
    {first second : String} (before : (collections resources).Before first second) :
    ¬(collections others).Before second first := by
  intro reversed
  have fixed : LockRegistry.collections.Pairwise fun first second =>
      LockRegistry.collections.idxOf first < LockRegistry.collections.idxOf second := by
    decide
  have less := List.pairwise_pair.1 (fixed.sublist (before.trans List.filter_sublist))
  have greater := List.pairwise_pair.1 (fixed.sublist (reversed.trans List.filter_sublist))
  exact Nat.lt_asymm less greater

theorem Call.Before.of_reversed {resources collected : List String} {first second : String}
    (before : (many resources).Before first second)
    (reversed : (collections collected).Before second first) :
    first = indexes ∧ second ∈ [nodes, relationships] := by
  rcases reversed.cases_of_collections with greater | ⟨member, same, -⟩
  · exact absurd greater (String.lt_asymm before.lt_of_many)
  · exact ⟨same, member⟩

/-- Two calls acquire two resources in different orders only if one call is for collections, the
other is not, and one of the two resources is that of the indexes. -/
theorem Call.Before.conflict {left right : Call} {first second : String}
    (before : left.Before first second) (reversed : right.Before second first) :
    ∃ resources collected, ∃ collection ∈ [nodes, relationships],
      left = many resources ∧ right = collections collected ∧
          first = indexes ∧ second = collection ∨
        left = collections collected ∧ right = many resources ∧
          first = collection ∧ second = indexes := by
  cases left with
  | many resources =>
      cases right with
      | many others => exact absurd reversed.lt_of_many (String.lt_asymm before.lt_of_many)
      | collections collected =>
          obtain ⟨same, member⟩ := before.of_reversed reversed
          exact ⟨resources, collected, second, member, .inl ⟨rfl, rfl, same, rfl⟩⟩
  | collections collected =>
      cases right with
      | many resources =>
          obtain ⟨same, member⟩ := reversed.of_reversed before
          exact ⟨resources, collected, first, member, .inr ⟨rfl, rfl, rfl, same⟩⟩
      | collections others => exact absurd reversed before.not_reversed_of_collections

/-! ## Calls in both directions -/

/-- Whether some call acquires one resource before another one. -/
def Leads (calls : List Call) (first second : String) : Prop :=
  ∃ call ∈ calls, call.Before first second

/-- Whether calls lead from the indexes to a collection that is acquired before the indexes. -/
def LeadBack (calls : List Call) : Prop :=
  ∃ resources, Call.collections resources ∈ calls ∧ indexes ∈ resources ∧
    ∃ collection ∈ [nodes, relationships], collection ∈ resources ∧
      Relation.ReflTransGen (Leads calls) indexes collection

/-- Calls lead upwards from a resource to which the indexes lead if they lead to where the way
ends. -/
theorem lt_of_leads {calls : List Call} (never : ¬LeadBack calls) {first second : String}
    (leads : Relation.TransGen (Leads calls) first second)
    (alike : Relation.ReflTransGen (Leads calls) indexes second →
      Relation.ReflTransGen (Leads calls) indexes first) : first < second := by
  have oneStep : ∀ {between last : String}, Leads calls between last →
      (Relation.ReflTransGen (Leads calls) indexes last →
        Relation.ReflTransGen (Leads calls) indexes between) → between < last := by
    rintro between last ⟨call, member, before⟩ reached
    cases call with
    | many resources => exact before.lt_of_many
    | collections resources =>
        rcases before.cases_of_collections with less | ⟨collection, rfl, asked, askedIndexes⟩
        · exact less
        · exact absurd ⟨resources, member, askedIndexes, _, collection, asked, reached .refl⟩ never
  induction leads with
  | single step => exact oneStep step alike
  | @tail between last path step ih =>
      have less := ih fun reached => alike (reached.tail step)
      refine String.lt_trans less (oneStep step fun reached => ?_)
      exact (alike reached).trans path.to_reflTransGen

/-- No resource is acquired before itself, however many calls are followed. -/
theorem not_leads_self {calls : List Call} (never : ¬LeadBack calls) (resource : String) :
    ¬Relation.TransGen (Leads calls) resource resource :=
  fun leads => String.lt_irrefl resource (lt_of_leads never leads id)

/-- Calls lead back only if one of them acquires the indexes and a resource with a later name, and
another one acquires the indexes after other collections. -/
theorem LeadBack.exists_calls {calls : List Call} (leadBack : LeadBack calls) :
    (∃ resources, Call.many resources ∈ calls ∧ indexes ∈ resources ∧
      ∃ later ∈ resources, indexes < later) ∧
    ∃ collected, Call.collections collected ∈ calls ∧ indexes ∈ collected ∧
      ∃ collection ∈ [nodes, relationships], collection ∈ collected := by
  obtain ⟨collected, called, askedIndexes, collection, member, asked, leads⟩ := leadBack
  refine ⟨?_, collected, called, askedIndexes, collection, member, asked⟩
  rcases Relation.ReflTransGen.cases_head leads with rfl | ⟨next, ⟨call, inside, before⟩, -⟩
  · exact absurd member (by decide)
  · cases call with
    | many resources =>
        have acquired : ∀ resource ∈ [indexes, next], resource ∈ resources := fun resource among =>
          (mem_acquisitionOrder resources resource).1 (before.subset among)
        exact ⟨resources, inside, acquired indexes (by simp), next, acquired next (by simp),
          before.lt_of_many⟩
    | collections resources =>
        have last : LockRegistry.collections.Pairwise fun first _ => first ≠ indexes := by decide
        have differs := List.pairwise_pair.1 (last.sublist (before.trans List.filter_sublist))
        exact absurd rfl differs

end LockRegistry

/-! ## Programs that use a registry -/

theorem Action.nonempty_answer (action : Action) : Nonempty action.Answer := by
  cases action with
  | read | list => exact ⟨.error .missing⟩
  | kind => exact ⟨none⟩
  | replace => exact ⟨Replacement.done⟩
  | fresh | ownProcess => exact ⟨0⟩
  | makeDirectories | rename | removeFile | removeDirectory | removeAll | isRunning | isLive
  | isActive => exact ⟨true⟩
  | setLive | setActive | acquire | release | enter | leave => exact ⟨()⟩

namespace Program

variable {α : Type} {registry : String}

/-- Whether the next action of a program acquires a resource. -/
def Awaits (registry resource : String) : Program α → Prop
  | .done _ => False
  | .act action _ => action = .acquire registry resource

/-- Whether a program holds a resource: it gives the resource back without acquiring it before. -/
def HoldsLock (registry resource : String) : Program α → Prop
  | .done _ => False
  | .act action next => action = .release registry resource ∨
      action ≠ .acquire registry resource ∧ ∀ answer, (next answer).HoldsLock registry resource

/-- Whether a program that holds some resources first acquires the pending ones in their order, then
works without waiting, and gives back everything that it holds, in any order. -/
inductive Follows (registry : String) : List String → List String → Program α → Prop where
  /-- The first of the pending resources is acquired. -/
  | acquire {resource : String} {pending held : List String}
      {next : (Action.acquire registry resource).Answer → Program α}
      (later : ∀ answer, (next answer).Follows registry pending (held ++ [resource])) :
      Follows registry (resource :: pending) held (.act (.acquire registry resource) next)
  /-- Something is done that takes and gives back nothing. -/
  | work {action : Action} {held : List String} {next : action.Answer → Program α}
      (inner : action.IsInner true)
      (later : ∀ answer, (next answer).Follows registry [] held) :
      Follows registry [] held (.act action next)
  /-- A resource is given back. -/
  | release {resource : String} {held : List String}
      {next : (Action.release registry resource).Answer → Program α} (holds : resource ∈ held)
      (later : ∀ answer, (next answer).Follows registry [] (held.erase resource)) :
      Follows registry [] held (.act (.release registry resource) next)
  /-- Nothing is held at the end. -/
  | done {value : α} : Follows registry [] [] (.done value)

/-- What a program holds that follows an order. -/
theorem Follows.holdsLock_iff {pending held : List String} {program : Program α}
    (follows : program.Follows registry pending held) (distinct : (held ++ pending).Nodup)
    (resource : String) : program.HoldsLock registry resource ↔ resource ∈ held := by
  induction follows with
  | @acquire first pending held next later ih =>
      have fresh : first ∉ held := fun member =>
        (List.nodup_append.1 distinct).2.2 first member first List.mem_cons_self rfl
      have later := ih () (by simpa using distinct)
      simp only [HoldsLock, reduceCtorEq, false_or, ne_eq, Action.acquire.injEq, true_and]
      constructor
      · rintro ⟨differs, holds⟩
        simpa [Ne.symm differs] using later.1 (holds ())
      · intro member
        have differs : first ≠ resource := fun same => fresh (same ▸ member)
        exact ⟨differs, fun _ => later.2 (List.mem_append_left [first] member)⟩
  | @work action held next inner later ih =>
      obtain ⟨answer⟩ := action.nonempty_answer
      have notReleased : action ≠ .release registry resource := by
        rintro rfl
        exact inner
      have notAcquired : action ≠ .acquire registry resource := by
        rintro rfl
        exact inner
      simp only [HoldsLock, notReleased, notAcquired, ne_eq, not_false_eq_true, true_and, false_or]
      exact ⟨fun holds => (ih answer distinct).1 (holds answer),
        fun member answer => (ih answer distinct).2 member⟩
  | @release first held next holds later ih =>
      rw [List.append_nil] at distinct
      have later := ih () (by simpa using distinct.erase first)
      rw [distinct.mem_erase_iff] at later
      simp only [HoldsLock, Action.release.injEq, true_and, reduceCtorEq, ne_eq, not_false_eq_true]
      constructor
      · rintro (rfl | held)
        · exact holds
        · exact (later.1 (held ())).2
      · intro member
        by_cases same : first = resource
        · exact .inl same
        · exact .inr fun _ => later.2 ⟨Ne.symm same, member⟩
  | done => simp [HoldsLock]

/-- Whether a program is on its way with an order: it follows the rest of the order, or has acquired
all of it. -/
def Stands (registry : String) (order : List String) (program : Program α) : Prop :=
  ∃ pending held, program.Follows registry pending held ∧ (held ++ pending).Nodup ∧
    (pending ≠ [] → order = held ++ pending)

variable {order : List String}

theorem Stands.step {action : Action} {next : action.Answer → Program α}
    (stands : (Program.act action next).Stands registry order) (answer : action.Answer) :
    (next answer).Stands registry order := by
  obtain ⟨pending, held, follows, distinct, whole⟩ := stands
  cases follows with
  | @acquire resource pending _ _ later =>
      have same : held ++ resource :: pending = held ++ [resource] ++ pending := by simp
      exact ⟨pending, held ++ [resource], later answer, same ▸ distinct,
        fun _ => same ▸ whole (List.cons_ne_nil _ _)⟩
  | work inner later => exact ⟨[], held, later answer, distinct, fun more => absurd rfl more⟩
  | release holds later =>
      rw [List.append_nil] at distinct
      exact ⟨[], _, later answer, by simpa using distinct.erase _, fun more => absurd rfl more⟩

/-- What a program holds that waits for a resource comes before the resource. -/
theorem Stands.before {program : Program α} {awaited held : String}
    (stands : program.Stands registry order) (awaits : program.Awaits registry awaited)
    (holds : program.HoldsLock registry held) : [held, awaited].Sublist order := by
  obtain ⟨pending, taken, follows, distinct, whole⟩ := stands
  have member := (follows.holdsLock_iff distinct held).1 holds
  cases follows with
  | @acquire resource pending _ _ later =>
      obtain rfl : resource = awaited := by simpa [Awaits] using awaits
      rw [whole (List.cons_ne_nil _ _)]
      exact (List.singleton_sublist.2 member).append (List.singleton_sublist.2 List.mem_cons_self)
  | work inner later =>
      simp only [Awaits] at awaits
      subst awaits
      exact inner.elim
  | release released later => cases awaits
  | done => exact awaits.elim

/-- How an action of a program changes what the program holds. -/
theorem Stands.holdsLock_step {action : Action} {next : action.Answer → Program α}
    (stands : (Program.act action next).Stands registry order) (answer : action.Answer)
    (resource : String) :
    (next answer).HoldsLock registry resource ↔ action = .acquire registry resource ∨
      (Program.act action next).HoldsLock registry resource ∧
        action ≠ .release registry resource := by
  obtain ⟨pending, held, follows, distinct, -⟩ := stands
  rw [follows.holdsLock_iff distinct]
  cases follows with
  | @acquire first pending _ _ later =>
      have same : held ++ first :: pending = held ++ [first] ++ pending := by simp
      rw [(later answer).holdsLock_iff (same ▸ distinct)]
      simp [or_comm, eq_comm]
  | work inner later =>
      rw [(later answer).holdsLock_iff distinct]
      have notAcquired : action ≠ .acquire registry resource := by
        rintro rfl
        exact inner
      have notReleased : action ≠ .release registry resource := by
        rintro rfl
        exact inner
      simp [notAcquired, notReleased]
  | @release first _ _ holds later =>
      rw [List.append_nil] at distinct
      rw [(later answer).holdsLock_iff (by simpa using distinct.erase first),
        distinct.mem_erase_iff]
      simp [and_comm, eq_comm]

/-- Do something between a call and giving back what the call acquired. -/
def within (registry : String) (call : LockRegistry.Call) (work : Program α) : Program α := do
  call.order.forM fun resource => perform (.acquire registry resource)
  let value ← work
  call.order.forM fun resource => perform (.release registry resource)
  pure value

theorem follows_within (call : LockRegistry.Call) {work : Program α}
    (inner : work.Uses (Action.IsInner true)) :
    (work.within registry call).Follows registry call.order [] := by
  have giveBack : ∀ (held : List String) (value : α),
      ((held.forM fun resource => perform (.release registry resource)) >>=
        fun _ => pure value).Follows registry [] held := by
    intro held value
    induction held with
    | nil => exact .done
    | cons resource rest ih =>
        refine .release List.mem_cons_self fun _ => ?_
        rw [List.erase_cons_head]
        exact ih
  have working : ∀ (held : List String), (work >>= fun value =>
      (held.forM fun resource => perform (.release registry resource)) >>=
        fun _ => pure value).Follows registry [] held := by
    intro held
    change (work.bind _).Follows registry [] held
    induction work with
    | done value => exact giveBack held value
    | act action next ih => exact .work inner.1 fun answer => ih answer (inner.2 answer)
  have acquiring : ∀ (pending held : List String),
      ((pending.forM fun resource => perform (.acquire registry resource)) >>= fun _ =>
        work >>= fun value =>
          ((held ++ pending).forM fun resource => perform (.release registry resource)) >>=
            fun _ => pure value).Follows registry pending held := by
    intro pending
    induction pending with
    | nil =>
        intro held
        rw [List.append_nil]
        exact working held
    | cons resource rest ih =>
        intro held
        refine .acquire fun _ => ?_
        have later := ih (held ++ [resource])
        rwa [List.append_assoc, List.singleton_append] at later
  exact acquiring call.order []

end Program

/-- A task that holds the locks of collections makes a call for collections. -/
theorem Query.Executor.run_holding {ε α : Type} (registry : String) (resources : List String)
    (task : Task ε α) : (holding registry resources task).run =
      task.run.within registry (.collections resources) := by
  rw [holding, ExceptT.run_bind_lift]
  rfl

/-! ## Programs that take turns -/

namespace World

variable {α : Type} {registry : String} {calls : List LockRegistry.Call}

theorem isHeld_perform (world : World) (action : Action) (registry resource : String) :
    ((world.perform action).2.registry registry).isHeld resource ↔
      action = .acquire registry resource ∨
        (world.registry registry).isHeld resource ∧ action ≠ .release registry resource := by
  have others : ∀ {name change}, name ≠ registry →
      (world.changeRegistry name change).registry registry = world.registry registry := by
    intro name change differs
    simp [World.registry, changeRegistry, SortedMap.get?_insert, Ne.symm differs]
  cases action with
  | acquire name other =>
      by_cases same : name = registry
      · subst same
        simp [perform, LockRegistry.isHeld_acquire, @eq_comm _ resource other]
      · simp [perform, others same, same]
  | release name other =>
      by_cases same : name = registry
      · subst same
        simp [perform, LockRegistry.isHeld_release, @eq_comm _ resource other, and_comm]
      · simp [perform, others same, same]
  | enter | leave =>
      simp only [perform, registry_changeGate]
      simp
  | _ => simp [perform, onDisk, World.registry]

/-- Whether one of several programs waits for a resource. -/
def Waits (registry : String) (programs : List (Program α)) (index : ℕ) (resource : String) :
    Prop :=
  ∃ program, programs[index]? = some program ∧ program.Awaits registry resource

/-- Whether one of several programs holds a resource. -/
def Keeps (registry : String) (programs : List (Program α)) (index : ℕ) (resource : String) :
    Prop :=
  ∃ program, programs[index]? = some program ∧ program.HoldsLock registry resource

/-- Whether each of some programs waits for a resource that one of them holds. -/
def Deadlocked (registry : String) (programs : List (Program α)) (stuck : Finset ℕ) : Prop :=
  stuck.Nonempty ∧ ∀ index ∈ stuck, ∃ other ∈ stuck, ∃ resource,
    Waits registry programs index resource ∧ Keeps registry programs other resource

/-- Whether programs are on their way with calls to one registry, of which they hold what is held
there, each resource alone. -/
structure Shares (registry : String) (calls : List LockRegistry.Call) (world : World)
    (programs : List (Program α)) : Prop where
  stands : ∀ program ∈ programs, ∃ call ∈ calls, program.Stands registry call.order
  held_iff : ∀ resource, (world.registry registry).isHeld resource ↔
    ∃ index, Keeps registry programs index resource
  alone : ∀ {resource index other}, Keeps registry programs index resource →
    Keeps registry programs other resource → index = other

variable {world : World} {programs : List (Program α)}

theorem keeps_set {index : ℕ} {action : Action} {next : action.Answer → Program α}
    (found : programs[index]? = some (.act action next)) {order : List String}
    (stands : (Program.act action next).Stands registry order) (answer : action.Answer)
    (other : ℕ) (resource : String) :
    Keeps registry (programs.set index (next answer)) other resource ↔
      if other = index then action = .acquire registry resource ∨
        Keeps registry programs other resource ∧ action ≠ .release registry resource
      else Keeps registry programs other resource := by
  have inside := (List.getElem?_eq_some_iff.1 found).1
  split
  · next same =>
      subst same
      simp only [Keeps, List.getElem?_set_self inside, Option.some.injEq, exists_eq_left', found]
      exact stands.holdsLock_step answer resource
  · next differs => rw [Keeps, List.getElem?_set_ne (Ne.symm differs), Keeps]

theorem Shares.turn {index : ℕ} {after : World} {rest : List (Program α)}
    (shares : Shares registry calls world programs)
    (turned : world.turn? programs index = some (after, rest)) :
    Shares registry calls after rest := by
  obtain ⟨action, next, found, enabled, same⟩ := turn?_eq_some turned
  cases same
  obtain ⟨call, member, stands⟩ := shares.stands _ (List.mem_of_getElem? found)
  have keeps := keeps_set found stands (world.perform action).1
  -- Nobody else holds what the program of the turn holds afterwards.
  have exclusive : ∀ {other resource}, other ≠ index → Keeps registry programs other resource →
      ¬(action = .acquire registry resource ∨ Keeps registry programs index resource) := by
    rintro other resource differs kept (rfl | own)
    · have held := (shares.held_iff resource).2 ⟨other, kept⟩
      simp [World.enabled, held] at enabled
    · exact differs (shares.alone kept own)
  refine ⟨fun program inside => ?_, fun resource => ?_, fun {resource first second} one two => ?_⟩
  · rcases List.mem_or_eq_of_mem_set inside with earlier | rfl
    · exact shares.stands program earlier
    · exact ⟨call, member, stands.step _⟩
  · rw [isHeld_perform, shares.held_iff]
    constructor
    · rintro (acquired | ⟨⟨other, kept⟩, notReleased⟩)
      · exact ⟨index, (keeps index resource).2 (by simp [acquired])⟩
      · refine ⟨other, (keeps other resource).2 ?_⟩
        split
        · exact .inr ⟨kept, notReleased⟩
        · exact kept
    · rintro ⟨other, kept⟩
      rw [keeps] at kept
      split at kept
      · exact kept.imp id fun ⟨kept, notReleased⟩ => ⟨⟨other, kept⟩, notReleased⟩
      · next differs =>
          refine .inr ⟨⟨other, kept⟩, ?_⟩
          rintro rfl
          exact exclusive differs kept (.inr ⟨_, found, .inl rfl⟩)
  · rw [keeps] at one two
    split at one <;> split at two
    · next left right => exact left.trans right.symm
    · next left right => exact absurd (one.imp id fun kept => left ▸ kept.1) (exclusive right two)
    · next left right => exact absurd (two.imp id fun kept => right ▸ kept.1) (exclusive left one)
    · exact shares.alone one two

theorem Shares.interleave {schedule : List ℕ} {after : World} {rest : List (Program α)}
    (shares : Shares registry calls world programs)
    (ran : world.interleave? programs schedule = some (after, rest)) :
    Shares registry calls after rest := by
  induction schedule generalizing world programs with
  | nil =>
      cases ran
      exact shares
  | cons index schedule ih =>
      rw [interleave?] at ran
      split at ran
      · next turned => exact ih (shares.turn turned) ran
      · cases ran

theorem Waits.unique {index : ℕ} {first second : String} (one : Waits registry programs index first)
    (two : Waits registry programs index second) : first = second := by
  obtain ⟨program, found, awaits⟩ := one
  obtain ⟨other, same, awaitsOther⟩ := two
  obtain rfl : program = other := Option.some.inj (found.symm.trans same)
  cases program with
  | done value => exact awaits.elim
  | act action next =>
      simp only [Program.Awaits] at awaits awaitsOther
      exact (Action.acquire.inj (awaits.symm.trans awaitsOther)).2

/-- Programs cannot wait for one another if their calls do not lead back. -/
theorem not_deadlocked
    (stands : ∀ program ∈ programs, ∃ call ∈ calls, program.Stands registry call.order)
    (never : ¬LockRegistry.LeadBack calls) (stuck : Finset ℕ) :
    ¬Deadlocked registry programs stuck := by
  rintro ⟨⟨start, started⟩, waiting⟩
  -- A program comes before another one if calls lead from what it awaits to what the other awaits.
  let precedes (index other : ℕ) : Prop := ∃ first second, Waits registry programs index first ∧
    Waits registry programs other second ∧
      Relation.TransGen (LockRegistry.Leads calls) first second
  have irreflexive : ∀ index, ¬precedes index index := by
    rintro index ⟨first, second, one, two, leads⟩
    obtain rfl := one.unique two
    exact LockRegistry.not_leads_self never first leads
  have transitive : ∀ first second third, precedes first second → precedes second third →
      precedes first third := by
    rintro _ _ _ ⟨one, two, waits, between, leads⟩ ⟨three, four, same, last, further⟩
    obtain rfl := between.unique same
    exact ⟨one, four, waits, last, leads.trans further⟩
  have strict : IsStrictOrder ℕ (flip precedes) :=
    { irrefl := irreflexive
      trans := fun first second third one two => transitive third second first two one }
  have noEnd : ∀ index ∈ stuck, ∃ other ∈ stuck, precedes index other := by
    intro index member
    obtain ⟨other, inside, resource, waits, program, found, holds⟩ := waiting index member
    obtain ⟨-, -, awaited, ⟨same, sameFound, awaits⟩, -⟩ := waiting other inside
    obtain rfl : program = same := Option.some.inj (found.symm.trans sameFound)
    obtain ⟨call, called, onItsWay⟩ := stands program (List.mem_of_getElem? found)
    have leads : LockRegistry.Leads calls resource awaited :=
      ⟨call, called, onItsWay.before awaits holds⟩
    exact ⟨other, inside, resource, awaited, waits, ⟨program, found, awaits⟩, .single leads⟩
  have wellFounded : (stuck : Set ℕ).WellFoundedOn (flip precedes) :=
    stuck.finite_toSet.wellFoundedOn
  refine wellFounded.induction (P := fun _ => False) (Finset.mem_coe.2 started) ?_
  intro index member ih
  obtain ⟨other, inside, later⟩ := noEnd index (Finset.mem_coe.1 member)
  exact ih other (Finset.mem_coe.2 inside) later

/-- What keeps a program from its turn is a resource that it waits for. -/
theorem waits_of_no_turn {index : ℕ} {program : Program α} {order : List String}
    (found : programs[index]? = some program) (unfinished : program.value? = none)
    (stands : program.Stands registry order) (blocked : world.turn? programs index = none) :
    ∃ resource, Waits registry programs index resource ∧
      (world.registry registry).isHeld resource := by
  cases program with
  | done value => cases unfinished
  | act action next =>
      have disabled : world.enabled action = false := by
        cases enabled : world.enabled action with
        | false => rfl
        | true => simp [turn?, found, enabled] at blocked
      obtain ⟨pending, held, follows, -⟩ := stands
      cases follows with
      | @acquire resource pending _ _ later =>
          exact ⟨resource, ⟨_, found, rfl⟩, by simpa [World.enabled] using disabled⟩
      | work inner later => cases action <;> first | exact inner.elim | cases disabled
      | release holds later => cases disabled

/-- Unless all programs have come to their ends, one of them can go on. -/
theorem Shares.exists_turn (shares : Shares registry calls world programs)
    (never : ¬LockRegistry.LeadBack calls)
    (unfinished : ∃ program ∈ programs, program.value? = none) :
    ∃ index, (world.turn? programs index).isSome := by
  classical
  by_contra! blocked
  have waits : ∀ {index program}, programs[index]? = some program → program.value? = none →
      ∃ resource, Waits registry programs index resource ∧
        (world.registry registry).isHeld resource := by
    intro index program found unfinished
    obtain ⟨call, -, stands⟩ := shares.stands program (List.mem_of_getElem? found)
    exact waits_of_no_turn found unfinished stands (by simpa using blocked index)
  let stuck := (Finset.range programs.length).filter fun index =>
    ∃ resource, Waits registry programs index resource
  have among : ∀ {index program}, programs[index]? = some program → program.value? = none →
      index ∈ stuck := by
    intro index program found unfinished
    obtain ⟨resource, waiting, -⟩ := waits found unfinished
    exact Finset.mem_filter.2 ⟨Finset.mem_range.2 (List.getElem?_eq_some_iff.1 found).1,
      resource, waiting⟩
  refine not_deadlocked shares.stands never stuck ⟨?_, fun index member => ?_⟩
  · obtain ⟨program, member, unended⟩ := unfinished
    obtain ⟨index, found⟩ := List.mem_iff_getElem?.1 member
    exact ⟨index, among found unended⟩
  · obtain ⟨resource, program, found, awaits⟩ := (Finset.mem_filter.1 member).2
    have unended : program.value? = none := by
      cases program with
      | done value => exact awaits.elim
      | act action next => rfl
    obtain ⟨same, waiting, held⟩ := waits found unended
    obtain ⟨other, program', foundOther, holds⟩ := (shares.held_iff same).1 held
    refine ⟨other, among foundOther ?_, same, waiting, program', foundOther, holds⟩
    cases program' with
    | done value => exact holds.elim
    | act action next => rfl

/-- Calls to one registry acquire two resources in different orders only if one call is for
collections, the other is not, and one of the resources is that of the indexes.  The calls cannot
deadlock unless they lead back from the indexes to a collection that is acquired before them. -/
theorem calls_not_deadlocked {start : World} {programs : List (Program α)}
    (free : ∀ resource, (start.registry registry).isHeld resource = false)
    (made : List.Forall₂ (fun call program => program.Follows registry call.order [])
      calls programs) :
    (∀ left ∈ calls, ∀ right ∈ calls, ∀ first second,
      left.Before first second → right.Before second first →
      ∃ resources collected, ∃ collection ∈ [LockRegistry.nodes, LockRegistry.relationships],
        left = .many resources ∧ right = .collections collected ∧
            first = LockRegistry.indexes ∧ second = collection ∨
          left = .collections collected ∧ right = .many resources ∧
            first = collection ∧ second = LockRegistry.indexes) ∧
    (LockRegistry.LeadBack calls →
      (∃ resources, .many resources ∈ calls ∧ LockRegistry.indexes ∈ resources ∧
        ∃ later ∈ resources, LockRegistry.indexes < later) ∧
      ∃ collected, .collections collected ∈ calls ∧ LockRegistry.indexes ∈ collected ∧
        ∃ collection ∈ [LockRegistry.nodes, LockRegistry.relationships],
          collection ∈ collected) ∧
    (¬LockRegistry.LeadBack calls → ∀ schedule after rest,
      start.interleave? programs schedule = some (after, rest) →
      (∀ stuck, ¬Deadlocked registry rest stuck) ∧
        ((∃ program ∈ rest, program.value? = none) →
          ∃ index, (after.turn? rest index).isSome)) := by
  have follows : ∀ program ∈ programs, ∃ call ∈ calls,
      program.Follows registry call.order [] := by
    clear free
    induction made with
    | nil => simp
    | cons first _ ih =>
        refine List.forall_mem_cons.2 ⟨⟨_, List.mem_cons_self, first⟩, fun program member => ?_⟩
        obtain ⟨call, inside, follows⟩ := ih program member
        exact ⟨call, List.mem_cons_of_mem _ inside, follows⟩
  have idle : ∀ index resource, ¬Keeps registry programs index resource := by
    rintro index resource ⟨program, found, holds⟩
    obtain ⟨call, -, follows⟩ := follows program (List.mem_of_getElem? found)
    simpa using (follows.holdsLock_iff (by simpa using call.order_nodup) resource).1 holds
  have shares : Shares registry calls start programs := by
    refine ⟨fun program member => ?_, fun resource => ?_, fun kept => absurd kept (idle _ _)⟩
    · obtain ⟨call, inside, follows⟩ := follows program member
      exact ⟨call, inside, call.order, [], follows, by simpa using call.order_nodup, fun _ => rfl⟩
    · simp [free resource, idle]
  refine ⟨fun left _ right _ first second before reversed => before.conflict reversed,
    fun leadBack => leadBack.exists_calls, fun never schedule after rest ran => ?_⟩
  have reached := shares.interleave ran
  exact ⟨not_deadlocked reached.stands never, reached.exists_turn never⟩

/-- Three threads, of which two acquire the indexes in different orders, cannot deadlock, because the
names after the indexes are left alone. -/
theorem calls_not_deadlocked_of_three :
    let calls : List LockRegistry.Call := [.many ["indexes", "b", "indexes"],
      .collections ["indexes", "nodes"], .collections ["relationships", "indexes"]]
    let programs := calls.map fun call => Program.within "locks" call (pure ())
    ¬LockRegistry.LeadBack calls ∧
      ∀ schedule after rest, ({} : World).interleave? programs schedule = some (after, rest) →
        (∀ stuck, ¬Deadlocked "locks" rest stuck) ∧
          ((∃ program ∈ rest, program.value? = none) →
            ∃ index, (after.turn? rest index).isSome) := by
  intro calls programs
  have made : List.Forall₂ (fun call program => program.Follows "locks" call.order [])
      calls programs :=
    List.forall₂_map_right_iff.2 (List.forall₂_same.2 fun call _ =>
      Program.follows_within call trivial)
  have free : ∀ resource, (({} : World).registry "locks").isHeld resource = false := fun _ => rfl
  obtain ⟨-, directions, safe⟩ := calls_not_deadlocked free made
  have never : ¬LockRegistry.LeadBack calls := by
    intro leadBack
    obtain ⟨⟨resources, called, -, later, member, less⟩, -⟩ := directions leadBack
    simp only [calls, List.mem_cons, LockRegistry.Call.many.injEq, reduceCtorEq, or_false,
      List.not_mem_nil] at called
    subst called
    revert less
    revert later
    decide
  exact ⟨never, safe never⟩

/-- A thread that acquires the indexes and the nodes in the order of their names deadlocks with one
that acquires them as collections. -/
theorem calls_deadlock :
    let calls : List LockRegistry.Call :=
      [.many ["indexes", "nodes"], .collections ["indexes", "nodes"]]
    let programs := calls.map fun call => Program.within "locks" call (pure ())
    ∃ after rest, ({} : World).interleave? programs [0, 1] = some (after, rest) ∧
      Deadlocked "locks" rest {0, 1} ∧ after.turn? rest 0 = none ∧ after.turn? rest 1 = none := by
  intro calls programs
  refine ⟨_, _, rfl, ⟨⟨0, by simp⟩, fun index member => ?_⟩, rfl, rfl⟩
  rcases Finset.mem_insert.1 member with rfl | member
  · exact ⟨1, by simp, "nodes", ⟨_, rfl, rfl⟩, _, rfl, .inr ⟨by decide, fun _ => .inl rfl⟩⟩
  · obtain rfl := Finset.mem_singleton.1 member
    exact ⟨0, by simp, "indexes", ⟨_, rfl, rfl⟩, _, rfl, .inr ⟨by decide, fun _ => .inl rfl⟩⟩

end World
end GraphStore
