import Hydration.Module
import Hydration.Proofs.Imports.Session
import Hydration.Proofs.RegisteredOptions

/-!
# What a host provides

A host registers options, defines modules, and defines code that brings a module
when it is loaded.  Whatever it provides, in whatever order, a catalog holds under
each absolute path what was provided for it last, and imports, however many are
under way, change nothing but how often code was loaded and which module it
keeps.  So an import of a name brings what was provided last for a path with the
same absolute form, or a fault if nothing was.
-/

namespace Hydration

/-- What a host provides for a path. -/
inductive Provision where
  /-- Options, and a nickname if one is given. -/
  | options (entry : Registering)
  /-- A module that is ready to use. -/
  | ready (path : String) (module : Module)
  /-- Code that is loaded on demand. -/
  | lazy (path : String) (loads : List (Load Module)) (lastLoad : Load Module)

namespace Provision

/-- The registration, if options are provided. -/
def registering? : Provision → Option Registering
  | options entry => some entry
  | ready _ _ | lazy _ _ _ => none

/-- The path that a module is provided for. -/
def path? : Provision → Option String
  | options _ => none
  | ready path _ | lazy path _ _ => some path

/-- The registrations among what was provided, in order. -/
def registerings (told : List Provision) : List Registering :=
  told.filterMap registering?

/-- The module or the code provided last for a path with this absolute form. -/
def lastAt? (base : String) (told : List Provision) (absolute : String) : Option Provision :=
  told.findRev? fun provision =>
    provision.path?.any fun path => Path.absolute base path = absolute

/-- The module or the code provided last for a path with the same absolute form. -/
def latest? (base : String) (told : List Provision) (name : String) : Option Provision :=
  lastAt? base told (Path.absolute base name)

/-- What the import of something provided may bring. -/
inductive Brings : Provision → Except MountFault Module → Prop where
  | ready (path : String) (module : Module) :
      Brings (.ready path module) (.ok module)
  | lazy
      (path : String)
      {loads : List (Load Module)}
      {lastLoad load : Load Module}
      (member : load ∈ lastLoad :: loads) :
      Brings (.lazy path loads lastLoad) load.outcome

/-- What an import brings: what was provided last for its name, or a fault if nothing was. -/
def Answers
    (base : String)
    (told : List Provision)
    (name : String)
    (outcome : Except MountFault Module) : Prop :=
  match latest? base told name with
  | none => outcome = .error (Catalog.undefinedFault name)
  | some provision => provision.Brings outcome

variable {base : String} {told : List Provision}

theorem registerings_append (told : List Provision) (provision : Provision) :
    registerings (told ++ [provision]) =
      registerings told ++ provision.registering?.toList := by
  rw [registerings, List.filterMap_append, ← registerings]
  cases provision <;> rfl

theorem lastAt?_append (provision : Provision) (absolute : String) :
    lastAt? base (told ++ [provision]) absolute =
      if provision.path?.any (fun path => Path.absolute base path = absolute) then some provision
      else lastAt? base told absolute := by
  simp only [lastAt?, List.findRev?_eq_find?_reverse, List.reverse_append, List.reverse_singleton,
    List.singleton_append, List.find?_cons]
  split <;> simp_all

/-- What stands under an absolute path was provided for a path with that absolute form. -/
theorem absolute_of_lastAt?_eq_some
    {provision : Provision}
    {absolute : String}
    (found : lastAt? base told absolute = some provision) :
    Path.absolute base absolute = absolute := by
  rw [lastAt?, List.findRev?_eq_find?_reverse] at found
  have holds : provision.path?.any (fun path => Path.absolute base path = absolute) := by
    simpa using List.find?_some found
  obtain ⟨path, _, same⟩ := (Option.any_eq_true _ _).mp holds
  rw [← of_decide_eq_true same, Path.absolute_absolute]

end Provision

/-- A chunk keeps no module but one that its loads may bring. -/
def Chunk.IsHonest {μ : Type} (chunk : Chunk μ) : Prop :=
  ∀ module, chunk.cached = some module →
    ∃ load ∈ chunk.lastLoad :: chunk.loads, load.outcome = .ok module

/-- A load is one of those that a chunk may come to. -/
theorem Chunk.load_mem {μ : Type} (chunk : Chunk μ) (number : Nat) :
    chunk.load number ∈ chunk.lastLoad :: chunk.loads := by
  unfold Chunk.load
  cases found : chunk.loads[number]? with
  | none => exact List.mem_cons_self
  | some load => exact List.mem_cons_of_mem _ (List.mem_of_getElem? found)

/-- What an import brings to the cache of a chunk is a load of that chunk. -/
def Import.IsOwn {μ : Type} (catalog : Catalog μ) (pending : Import μ) : Prop :=
  ∀ load key, pending = .loading load (some key) →
    ∃ chunk, catalog.chunks.get? key = some chunk ∧ load ∈ chunk.lastLoad :: chunk.loads

theorem Import.isOwn_settled {μ : Type} {catalog : Catalog μ} {outcome : Except MountFault μ} :
    (Import.settled outcome).IsOwn catalog := by
  intro load key loading
  cases loading

theorem Import.isOwn_uncached {μ : Type} {catalog : Catalog μ} {load : Load μ} :
    (Import.loading load none).IsOwn catalog := by
  intro load key loading
  cases loading

namespace Catalog

/-- All chunks are there, with the loads they had. -/
def KeepsLoads {μ : Type} (before after : Catalog μ) : Prop :=
  ∀ key chunk, before.chunks.get? key = some chunk →
    ∃ later, after.chunks.get? key = some later ∧
      later.loads = chunk.loads ∧ later.lastLoad = chunk.lastLoad

/-- All definitions stand as they did, and so do the loads of all chunks. -/
structure Endures {μ : Type} (before after : Catalog μ) : Prop where
  base : after.base = before.base
  definitions : after.definitions = before.definitions
  loads : before.KeepsLoads after
  honest : (∀ chunk ∈ before.chunks.entries, chunk.IsHonest) →
    ∀ chunk ∈ after.chunks.entries, chunk.IsHonest

section

variable {μ : Type} {before after : Catalog μ} {opened : List String} {pending : Import μ}

theorem KeepsLoads.refl (catalog : Catalog μ) : catalog.KeepsLoads catalog :=
  fun _ chunk found => ⟨chunk, found, rfl, rfl⟩

theorem KeepsLoads.addChunk (catalog : Catalog μ) (chunk : Chunk μ) :
    catalog.KeepsLoads (catalog.addChunk chunk) := by
  intro key old found
  exact ⟨old, Table.get?_push_eq_some_iff.mpr (.inl found), rfl, rfl⟩

theorem KeepsLoads.isOwn (keeps : before.KeepsLoads after) (own : pending.IsOwn before) :
    pending.IsOwn after := by
  intro load key loading
  obtain ⟨chunk, found, member⟩ := own load key loading
  obtain ⟨later, foundToo, loads, lastLoad⟩ := keeps key chunk found
  exact ⟨later, foundToo, by rwa [loads, lastLoad]⟩

theorem Endures.refl (catalog : Catalog μ) : catalog.Endures catalog :=
  ⟨rfl, rfl, .refl catalog, id⟩

/-- A chunk may change as long as its loads stay and it remains honest. -/
theorem Endures.modify
    {catalog : Catalog μ}
    {key : Nat}
    {change : Chunk μ → Chunk μ}
    (loads : ∀ chunk, (change chunk).loads = chunk.loads)
    (lastLoad : ∀ chunk, (change chunk).lastLoad = chunk.lastLoad)
    (honest : ∀ chunk, catalog.chunks.get? key = some chunk → chunk.IsHonest →
      (change chunk).IsHonest) :
    catalog.Endures { catalog with chunks := catalog.chunks.modify key change } := by
  refine ⟨rfl, rfl, ?_, ?_⟩
  · intro other chunk found
    simp only [Table.get?_modify, found]
    split
    · exact ⟨change chunk, rfl, loads chunk, lastLoad chunk⟩
    · exact ⟨chunk, rfl, rfl, rfl⟩
  · intro before chunk member
    obtain ⟨other, found⟩ := List.mem_iff_getElem?.mp member
    replace found : (catalog.chunks.modify key change).get? other = some chunk := found
    rw [Table.get?_modify] at found
    split at found
    · next same =>
        obtain ⟨old, foundOld, rfl⟩ := Option.map_eq_some_iff.mp found
        exact honest old (same ▸ foundOld) (before old (List.mem_of_getElem? foundOld))
    · exact before chunk (List.mem_of_getElem? found)

theorem Endures.load (catalog : Catalog μ) (key : Nat) (chunk : Chunk μ) (cache : Option Nat) :
    catalog.Endures (catalog.load key chunk cache).catalog :=
  .modify (fun _ => rfl) (fun _ => rfl) fun _ _ honest => honest

/-- An import that arrives brings what it was to bring. -/
theorem outcome_of_poll_eq_some
    {outcome : Except MountFault μ}
    (arrived : before.poll opened pending = some (outcome, after)) :
    outcome = pending.outcome := by
  cases pending with
  | settled settled =>
      cases arrived
      rfl
  | loading load cache =>
      cases (poll_loading_eq_some arrived).1
      rfl

/-- Looking at an import of a catalog's own leaves the catalog honest. -/
theorem Endures.poll
    {outcome : Except MountFault μ}
    (own : pending.IsOwn before)
    (arrived : before.poll opened pending = some (outcome, after)) :
    before.Endures after := by
  cases pending with
  | settled settled =>
      cases arrived
      exact .refl before
  | loading load cache =>
      cases (poll_loading_eq_some arrived).1
      unfold keep
      split
      · next key module brought =>
          obtain ⟨chunk, found, member⟩ := own load key rfl
          refine .modify (fun _ => rfl) (fun _ => rfl) ?_
          intro other foundToo _ kept same
          cases found.symm.trans foundToo
          cases same
          exact ⟨load, member, brought⟩
      · exact .refl before

end

/-- What a catalog holds stands for what was provided. -/
inductive Stands (catalog : Catalog Module) :
    Option Provision → Option (Definition Module) → Prop where
  | nothing :
      Stands catalog none none
  | ready (path : String) (module : Module) :
      Stands catalog (some (.ready path module)) (some (.ready module))
  | lazy
      (path : String)
      {key : Nat}
      {chunk : Chunk Module}
      (found : catalog.chunks.get? key = some chunk) :
      Stands catalog (some (.lazy path chunk.loads chunk.lastLoad)) (some (.lazy key))

/-- A catalog holds under each absolute path what was provided for it last. -/
structure Reflects (base : String) (told : List Provision) (catalog : Catalog Module) : Prop where
  rooted : catalog.base = base
  stands : ∀ path, catalog.Stands (Provision.lastAt? base told path) (catalog.find? path)
  honest : ∀ chunk ∈ catalog.chunks.entries, chunk.IsHonest

section

variable
  {base : String} {told : List Provision} {before after catalog : Catalog Module}
  {provision? : Option Provision} {definition? : Option (Definition Module)}

theorem Endures.stands
    (endures : before.Endures after)
    (stands : before.Stands provision? definition?) :
    after.Stands provision? definition? := by
  cases stands with
  | nothing => exact .nothing
  | ready path module => exact .ready path module
  | lazy path found =>
      obtain ⟨later, foundToo, loads, lastLoad⟩ := endures.loads _ _ found
      rw [← loads, ← lastLoad]
      exact .lazy path foundToo

theorem Reflects.endures
    (reflects : before.Reflects base told)
    (endures : before.Endures after) :
    after.Reflects base told := by
  refine ⟨endures.base.trans reflects.rooted, fun path => ?_, endures.honest reflects.honest⟩
  have same : after.find? path = before.find? path := by
    rw [find?, find?, endures.definitions]
  rw [same]
  exact endures.stands (reflects.stands path)

/-- What is defined under a path stands there from then on. -/
theorem Reflects.put
    {provision : Provision}
    {path : String}
    {definition : Definition Module}
    (reflects : catalog.Reflects base told)
    (provides : provision.path? = some path)
    (stands : catalog.Stands (some provision) (some definition)) :
    (catalog.put path definition).Reflects base (told ++ [provision]) := by
  have kept {provision? : Option Provision} {definition? : Option (Definition Module)}
      (stands : catalog.Stands provision? definition?) :
      (catalog.put path definition).Stands provision? definition? := by
    cases stands with
    | nothing => exact .nothing
    | ready path module => exact .ready path module
    | lazy path found => exact .lazy path found
  refine ⟨reflects.rooted, fun other => ?_, reflects.honest⟩
  rw [find?_put, Provision.lastAt?_append, provides, Option.any_some, absolute, reflects.rooted]
  by_cases same : Path.absolute base path = other
  · simpa only [same, decide_true, if_true] using kept stands
  · simpa only [same, decide_false, Bool.false_eq_true, if_false] using
      kept (reflects.stands other)

/-- Options are of no importance to the catalog. -/
theorem Reflects.options (reflects : catalog.Reflects base told) (entry : Registering) :
    catalog.Reflects base (told ++ [.options entry]) := by
  refine ⟨reflects.rooted, fun path => ?_, reflects.honest⟩
  rw [Provision.lastAt?_append]
  exact reflects.stands path

theorem Reflects.define
    (reflects : catalog.Reflects base told)
    (path : String)
    (module : Module) :
    (catalog.define path module).Reflects base (told ++ [.ready path module]) :=
  reflects.put rfl (.ready path module)

theorem Reflects.addChunk
    {chunk : Chunk Module}
    (reflects : catalog.Reflects base told)
    (honest : chunk.IsHonest) :
    (catalog.addChunk chunk).Reflects base told := by
  refine reflects.endures ⟨rfl, rfl, .addChunk catalog chunk, ?_⟩
  intro before entry member
  rcases List.mem_append.mp member with old | new
  · exact before entry old
  · rwa [List.mem_singleton.mp new]

theorem Reflects.defineLazy
    (reflects : catalog.Reflects base told)
    (path : String)
    (loads : List (Load Module))
    (lastLoad : Load Module) :
    (catalog.defineLazy path ⟨path, loads, lastLoad, 0, none⟩).Reflects base
      (told ++ [.lazy path loads lastLoad]) := by
  let chunk : Chunk Module := ⟨path, loads, lastLoad, 0, none⟩
  have added : (catalog.addChunk chunk).Reflects base told := by
    refine reflects.addChunk ?_
    intro module kept
    cases kept
  have found : (catalog.addChunk chunk).chunks.get? catalog.chunks.size = some chunk := by
    rw [Catalog.addChunk, Table.get?_push, if_pos rfl]
  exact added.put rfl (.lazy path found)

/-- Under a name stands what was provided last for a path with the same absolute form. -/
theorem Reflects.definition
    (reflects : catalog.Reflects base told)
    (name : String) :
    catalog.Stands (Provision.latest? base told name) (catalog.definition? name) := by
  have atAbsolute : catalog.Stands (Provision.latest? base told name)
      (catalog.find? (catalog.absolute name)) := by
    rw [absolute, reflects.rooted]
    exact reflects.stands _
  unfold Catalog.definition?
  split
  · next definition found =>
      have stands := reflects.stands name
      -- what is found as spelled stands under an absolute path, which the spelling then is
      have spelled : Path.absolute base name = name := by
        rw [found] at stands
        cases latest : Provision.lastAt? base told name with
        | none =>
            rw [latest] at stands
            cases stands
        | some provision => exact Provision.absolute_of_lastAt?_eq_some latest
      rw [absolute, reflects.rooted, spelled, found] at atAbsolute
      exact atAbsolute
  · exact atAbsolute

/-- An import that starts now brings what was provided last for its name. -/
theorem Reflects.start
    (reflects : catalog.Reflects base told)
    (name : String) :
    catalog.Endures (catalog.start name).catalog ∧
      (catalog.start name).pending.IsOwn (catalog.start name).catalog ∧
      Provision.Answers base told name (catalog.start name).pending.outcome := by
  have stands := reflects.definition name
  unfold Provision.Answers Catalog.start
  generalize catalog.definition? name = definition? at stands ⊢
  generalize Provision.latest? base told name = provision? at stands ⊢
  cases stands with
  | nothing => exact ⟨.refl catalog, Import.isOwn_settled, rfl⟩
  | ready path module => exact ⟨.refl catalog, Import.isOwn_settled, .ready path module⟩
  | @lazy path key chunk found =>
      simp only [found]
      split
      · next module cached =>
          obtain ⟨load, member, brought⟩ :=
            reflects.honest chunk (List.mem_of_getElem? found) module cached
          refine ⟨.refl catalog, Import.isOwn_settled, ?_⟩
          rw [Import.outcome, ← brought]
          exact .lazy path member
      · have loaded := Endures.load catalog key chunk (some key)
        have own : (catalog.load key chunk (some key)).pending.IsOwn catalog := by
          intro load other loading
          cases loading
          exact ⟨chunk, found, chunk.load_mem _⟩
        exact ⟨loaded, loaded.loads.isOwn own, .lazy path (chunk.load_mem _)⟩

end

end Catalog

end Hydration
