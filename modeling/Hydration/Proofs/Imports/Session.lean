import Hydration.Catalog

/-!
# Sessions with a catalog

A session is what a host makes of a catalog in the course of time: it defines
modules, starts imports, looks at them whenever it likes, and opens gates.  Any
number of imports may be under way together, and an import may be looked at in
any order or never.

An import is remembered with the chunk behind the name it was started for, so
that the imports of one lazy definition can be told from all others, also when
the path is defined again later.
-/

namespace Hydration

variable {μ : Type}

/-- What an import brings, once it is looked at in time. -/
def Import.outcome : Import μ → Except MountFault μ
  | .settled outcome => outcome
  | .loading load _ => load.outcome

/-- Whether an import has loaded a chunk. -/
def Import.isLoading : Import μ → Bool
  | .settled _ => false
  | .loading _ _ => true

/-- An import waits for nothing once the gate of its load, if there is one, is open. -/
theorem Import.awaited?_eq_none_iff {opened : List String} {pending : Import μ} :
    pending.awaited? opened = none ↔
      ∀ load cache gate, pending = .loading load cache → load.gate = some gate →
        gate ∈ opened := by
  cases pending with
  | settled => simp [awaited?]
  | loading load cache =>
      simp only [awaited?, Option.filter_eq_none_iff, Bool.not_eq_true', Bool.not_eq_false,
        List.contains_iff_mem]
      constructor
      · rintro opened _ _ gate ⟨⟩
        exact opened gate
      · intro opened gate
        exact opened load cache gate rfl

namespace Catalog

variable
  {catalog : Catalog μ} {path name : String} {definition : Definition μ}
  {chunk : Chunk μ} {key : Nat} {module : μ}

/-- The chunk behind a name, if what is defined under it is loaded on demand. -/
def chunkOf? (catalog : Catalog μ) (name : String) : Option Nat :=
  match catalog.definition? name with
  | some (.lazy key) => some key
  | _ => none

/-- Every lazy definition leads to a chunk that is there. -/
def IsLinked (catalog : Catalog μ) : Prop :=
  ∀ entry ∈ catalog.definitions, ∀ key, entry.2 = .lazy key → key < catalog.chunks.size

theorem mem_of_find?_eq_some (found : catalog.find? path = some definition) :
    (path, definition) ∈ catalog.definitions := by
  simp only [find?, Option.map_eq_some_iff] at found
  obtain ⟨⟨spelled, _⟩, first, rfl⟩ := found
  have same : spelled = path := by simpa using List.find?_some first
  exact same ▸ List.mem_of_find?_eq_some first

theorem exists_mem_of_definition?_eq_some
    (found : catalog.definition? name = some definition) :
    ∃ path, (path, definition) ∈ catalog.definitions := by
  unfold definition? at found
  split at found
  · next spelled =>
      cases found
      exact ⟨_, mem_of_find?_eq_some spelled⟩
  · exact ⟨_, mem_of_find?_eq_some found⟩

theorem definition?_of_chunkOf? (found : catalog.chunkOf? name = some key) :
    catalog.definition? name = some (.lazy key) := by
  unfold chunkOf? at found
  split at found
  · next lazily => cases found; exact lazily
  · cases found

theorem IsLinked.chunkOf?_lt
    (linked : catalog.IsLinked)
    (found : catalog.chunkOf? name = some key) :
    key < catalog.chunks.size := by
  obtain ⟨path, member⟩ := exists_mem_of_definition?_eq_some (definition?_of_chunkOf? found)
  exact linked _ member key rfl

theorem IsLinked.chunkOf?
    (linked : catalog.IsLinked)
    (found : catalog.chunkOf? name = some key) :
    ∃ chunk, catalog.chunks.get? key = some chunk := by
  refine Option.ne_none_iff_exists'.mp fun absent => ?_
  exact Nat.not_le_of_lt (linked.chunkOf?_lt found) ((Table.get?_eq_none_iff _ _).mp absent)

theorem IsLinked.put
    (linked : catalog.IsLinked)
    (there : ∀ key, definition = .lazy key → key < catalog.chunks.size) :
    (catalog.put path definition).IsLinked := by
  intro entry member key lazily
  simp only [Catalog.put] at member
  rcases List.mem_cons.mp member with rfl | old
  · exact there key lazily
  · exact linked entry (List.mem_filter.mp old).1 key lazily

/-- Chunks may come and change, but they do not go. -/
theorem IsLinked.chunks
    {chunks : Table (Chunk μ)}
    (linked : catalog.IsLinked)
    (grown : catalog.chunks.size ≤ chunks.size) :
    IsLinked { catalog with chunks } :=
  fun entry member key lazily =>
    Nat.lt_of_lt_of_le (linked entry member key lazily) grown

theorem chunks_defineLazy (catalog : Catalog μ) (path : String) (chunk : Chunk μ) :
    (catalog.defineLazy path chunk).chunks = catalog.chunks.push chunk :=
  rfl

/-- An import of what is not loaded on demand is settled at once. -/
theorem start_of_chunkOf?_eq_none (ready : catalog.chunkOf? name = none) :
    ∃ outcome, catalog.start name = ⟨.settled outcome, none, catalog⟩ := by
  unfold start
  cases found : catalog.definition? name with
  | none => exact ⟨_, rfl⟩
  | some definition =>
      cases definition with
      | ready module => exact ⟨_, rfl⟩
      | lazy key => simp [chunkOf?, found] at ready

/-- An import of a chunk that has its module is settled at once. -/
theorem start_of_cached
    (found : catalog.chunkOf? name = some key)
    (stored : catalog.chunks.get? key = some chunk)
    (cached : chunk.cached = some module) :
    catalog.start name = ⟨.settled (.ok module), none, catalog⟩ := by
  simp [start, definition?_of_chunkOf? found, stored, cached]

/-- An import of a chunk that has no module yet loads it. -/
theorem start_of_not_cached
    (found : catalog.chunkOf? name = some key)
    (stored : catalog.chunks.get? key = some chunk)
    (missing : chunk.cached = none) :
    catalog.start name = catalog.load key chunk (some key) := by
  simp [start, definition?_of_chunkOf? found, stored, missing]

/-- A load whose gate is open brings its outcome when it is looked at, and the module is kept. -/
theorem poll_loading_eq_some
    {opened : List String}
    {load : Load μ}
    {cache : Option Nat}
    {arrived : Except MountFault μ × Catalog μ}
    (ready : catalog.poll opened (.loading load cache) = some arrived) :
    arrived = (load.outcome, catalog.keep cache load.outcome) ∧
      ∀ gate, load.gate = some gate → gate ∈ opened := by
  unfold poll at ready
  split at ready
  · cases ready
  · next settled => cases settled
  · next free loading =>
      cases loading
      exact ⟨(Option.some.inj ready).symm,
        fun gate => Import.awaited?_eq_none_iff.mp free load cache gate rfl⟩

@[simp] theorem size_chunks_keep (cache : Option Nat) (outcome : Except MountFault μ) :
    (catalog.keep cache outcome).chunks.size = catalog.chunks.size := by
  unfold keep
  split <;> simp

@[simp] theorem definitions_keep (cache : Option Nat) (outcome : Except MountFault μ) :
    (catalog.keep cache outcome).definitions = catalog.definitions := by
  unfold keep
  split <;> rfl

/-- Only the chunk that an import has loaded may keep what it brings. -/
theorem get?_keep_of_ne
    {other : Nat}
    (outcome : Except MountFault μ)
    (apart : key ≠ other) :
    (catalog.keep (some other) outcome).chunks.get? key = catalog.chunks.get? key := by
  cases outcome <;> simp [keep, Table.get?_modify, apart]

end Catalog

/-- An import that a host has started. -/
structure Errand (μ : Type) where
  /-- The chunk behind the name it was started for. -/
  chunk : Option Nat
  pending : Import μ
  /-- What it has brought, once it is complete. -/
  outcome : Option (Except MountFault μ)

/-- A load arrives in the chunk it is remembered with. -/
def Errand.IsOwned (errand : Errand μ) : Prop :=
  ∀ load cache, errand.pending = .loading load cache →
    ∃ key, cache = some key ∧ errand.chunk = some key

/-- A load of a chunk that is not complete. -/
def Errand.IsUnderWay (errand : Errand μ) (key : Nat) : Prop :=
  errand.chunk = some key ∧ errand.pending.isLoading ∧ errand.outcome.isNone

instance (errand : Errand μ) (key : Nat) : Decidable (errand.IsUnderWay key) :=
  inferInstanceAs (Decidable (_ ∧ _ ∧ _))

/-- An import that is complete without a module. -/
def Errand.hasFailed (errand : Errand μ) : Bool :=
  match errand.outcome with
  | some (.error _) => true
  | _ => false

/-- A catalog, the gates that are open, and all imports started so far. -/
structure Session (μ : Type) where
  catalog : Catalog μ
  opened : List String
  errands : Table (Errand μ)

/-- What a host does with a catalog. -/
inductive Use (μ : Type) where
  | define (path : String) (module : μ)
  | defineLazy (path : String) (loads : List (Load μ)) (lastLoad : Load μ)
  /-- Starts the import of a name. -/
  | start (name : String)
  /-- Looks at an import once. -/
  | poll (index : Nat)
  /-- Opens a gate, so that the loads behind it arrive. -/
  | release (gate : String)

/-- The name whose import is started. -/
def Use.started? : Use μ → Option String
  | .start name => some name
  | _ => none

namespace Session

/-- A catalog without definitions, of which nothing is imported. -/
def beginning (base : String) : Session μ :=
  ⟨.empty base, [], .empty⟩

/-- Starts an import and remembers it. -/
def start (session : Session μ) (name : String) : Session μ :=
  let started := session.catalog.start name
  { session with
    catalog := started.catalog
    errands :=
      session.errands.push ⟨session.catalog.chunkOf? name, started.pending, none⟩ }

/-- Looks at an import that is not complete. -/
def poll (session : Session μ) (index : Nat) : Session μ :=
  match session.errands.get? index with
  | some ⟨_, pending, none⟩ =>
      match session.catalog.poll session.opened pending with
      | none => session
      | some (outcome, catalog) =>
          { session with
            catalog
            errands :=
              session.errands.modify index fun errand =>
                { errand with outcome := some outcome } }
  | _ => session

/-- A session right after a use of its catalog. -/
def use (session : Session μ) : Use μ → Session μ
  | .define path module =>
      { session with catalog := session.catalog.define path module }
  | .defineLazy path loads lastLoad =>
      { session with
        catalog := session.catalog.defineLazy path ⟨path, loads, lastLoad, 0, none⟩ }
  | .start name => session.start name
  | .poll index => session.poll index
  | .release gate => { session with opened := gate :: session.opened }

/-- How often a chunk was loaded. -/
def calls (session : Session μ) (key : Nat) : Nat :=
  (session.catalog.chunks.get? key).elim 0 Chunk.calls

/-- No import of the chunk has failed. -/
def IsUnfailed (session : Session μ) (key : Nat) : Prop :=
  ∀ errand ∈ session.errands.entries, errand.chunk = some key → errand.hasFailed = false

instance (session : Session μ) (key : Nat) : Decidable (session.IsUnfailed key) :=
  inferInstanceAs (Decidable (∀ _ ∈ _, _))

theorem calls_of_stored
    {session : Session μ}
    {key : Nat}
    {chunk : Chunk μ}
    (stored : session.catalog.chunks.get? key = some chunk) :
    session.calls key = chunk.calls := by
  simp [calls, stored]

end Session

/-- A moment of a session, and the use that is made of it next. -/
structure Moment (μ : Type) where
  session : Session μ
  use : Use μ

/-- The use starts an import of the chunk while a load of that chunk is not complete. -/
def Moment.Overlaps (moment : Moment μ) (key : Nat) : Prop :=
  moment.use.started?.bind moment.session.catalog.chunkOf? = some key ∧
    ∃ errand ∈ moment.session.errands.entries, errand.IsUnderWay key

instance (moment : Moment μ) (key : Nat) : Decidable (moment.Overlaps key) :=
  inferInstanceAs (Decidable (_ ∧ _))

namespace Session

/-- The session after a number of uses. -/
def run (session : Session μ) : List (Use μ) → Session μ
  | [] => session
  | use :: later => (session.use use).run later

/-- The moments at which the uses are made. -/
def moments (session : Session μ) : List (Use μ) → List (Moment μ)
  | [] => []
  | use :: later => ⟨session, use⟩ :: (session.use use).moments later

end Session

end Hydration
