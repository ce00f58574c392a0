import Hydration.Fault
import Hydration.Path
import Hydration.Table

/-!
# The module catalog

Modules are defined under the absolute form of a path, either ready to use or
behind a chunk of code that is loaded on demand.  A chunk keeps the module of
its last successful load; while it has one, it is not loaded again.  An import
that waits goes on with the chunk it was started for, whatever is defined under
its path meanwhile.
-/

namespace Hydration

/-- One load of a chunk: the gate it waits for, if any, and what it brings. -/
structure Load (μ : Type) where
  gate : Option String
  outcome : Except MountFault μ

/-- Code that is loaded on demand. -/
structure Chunk (μ : Type) where
  /-- The name under which its loads are reported. -/
  path : String
  /-- The loads to come, in order. -/
  loads : List (Load μ)
  /-- What every later load is like. -/
  lastLoad : Load μ
  /-- How often it was loaded. -/
  calls : Nat
  /-- The module of the last successful load that has arrived. -/
  cached : Option μ

def Chunk.load {μ : Type} (chunk : Chunk μ) (number : Nat) : Load μ :=
  (chunk.loads[number]?).getD chunk.lastLoad

/-- What is defined under a path. -/
inductive Definition (μ : Type) where
  | ready (module : μ)
  | lazy (chunk : Nat)

/-- An import under way. -/
inductive Import (μ : Type) where
  /-- The outcome is known. -/
  | settled (outcome : Except MountFault μ)
  /-- A load is under way, for the cache of a chunk or for none. -/
  | loading (load : Load μ) (cache : Option Nat)

/-- The definitions by path, and all chunks. -/
structure Catalog (μ : Type) where
  /-- What relative paths continue. -/
  base : String
  /-- One definition for each path, newest first. -/
  definitions : List (String × Definition μ)
  chunks : Table (Chunk μ)

namespace Catalog

variable {μ : Type}

/-- A catalog without definitions. -/
def empty (base : String) : Catalog μ := ⟨base, [], Table.empty⟩

/-- The absolute form of a path. -/
def absolute (catalog : Catalog μ) (path : String) : String :=
  Path.absolute catalog.base path

/-- Puts a definition under the absolute form of a path, in the place of any other. -/
def put (catalog : Catalog μ) (path : String) (definition : Definition μ) : Catalog μ :=
  let key := catalog.absolute path
  { catalog with
    definitions :=
      (key, definition) :: catalog.definitions.filter fun entry => entry.1 ≠ key }

/-- Adds a chunk under the key `catalog.chunks.size`. -/
def addChunk (catalog : Catalog μ) (chunk : Chunk μ) : Catalog μ :=
  { catalog with chunks := catalog.chunks.push chunk }

/-- Defines a module that is ready to use. -/
def define (catalog : Catalog μ) (path : String) (module : μ) : Catalog μ :=
  catalog.put path (.ready module)

/-- Defines a module that a new chunk brings. -/
def defineLazy (catalog : Catalog μ) (path : String) (chunk : Chunk μ) : Catalog μ :=
  (catalog.addChunk chunk).put path (.lazy catalog.chunks.size)

/-- The definition under exactly this path. -/
def find? (catalog : Catalog μ) (path : String) : Option (Definition μ) :=
  (catalog.definitions.find? fun entry => entry.1 = path).map Prod.snd

/-- The definition of a name, as spelled or in its absolute form. -/
def definition? (catalog : Catalog μ) (name : String) : Option (Definition μ) :=
  match catalog.find? name with
  | some definition => some definition
  | none => catalog.find? (catalog.absolute name)

/-- Whether a name is defined. -/
def contains (catalog : Catalog μ) (name : String) : Bool :=
  (catalog.definition? name).isSome

/-- The report that a chunk is loaded: its path, and how often it was loaded before. -/
structure LoadReport where
  path : String
  number : Nat
  deriving DecidableEq, Repr

/-- What starting an import gives: the import, the report of a load, and the catalog after it. -/
structure Started (μ : Type) where
  pending : Import μ
  report : Option LoadReport
  catalog : Catalog μ

/-- Loads a chunk; `cache` is the chunk that keeps the module when it arrives. -/
def load (catalog : Catalog μ) (key : Nat) (chunk : Chunk μ) (cache : Option Nat) :
    Started μ :=
  { pending := .loading (chunk.load chunk.calls) cache
    report := some ⟨chunk.path, chunk.calls⟩
    catalog :=
      { catalog with
        chunks := catalog.chunks.modify key fun chunk =>
          { chunk with calls := chunk.calls + 1 } } }

/-- The fault of a name that is not defined. -/
def undefinedFault (name : String) : MountFault :=
  .importFailed name "no module is defined under this path"

/-- Starts to import what is defined under a name now. -/
def start (catalog : Catalog μ) (name : String) : Started μ :=
  match catalog.definition? name with
  | none => ⟨.settled (.error (undefinedFault name)), none, catalog⟩
  | some (.ready module) => ⟨.settled (.ok module), none, catalog⟩
  | some (.lazy key) =>
      match catalog.chunks.get? key with
      | none => ⟨.settled (.error (undefinedFault name)), none, catalog⟩
      | some chunk =>
          match chunk.cached with
          | some module => ⟨.settled (.ok module), none, catalog⟩
          | none => catalog.load key chunk (some key)

/-- Keeps the module that a load has brought. -/
def keep (catalog : Catalog μ) (cache : Option Nat) (outcome : Except MountFault μ) :
    Catalog μ :=
  match cache, outcome with
  | some key, .ok module =>
      { catalog with
        chunks := catalog.chunks.modify key fun chunk =>
          { chunk with cached := some module } }
  | _, _ => catalog

end Catalog

namespace Catalog

variable {μ : Type}

/-- A definition is found under the absolute form of its path; the others are as before. -/
theorem find?_put (catalog : Catalog μ) (path other : String) (definition : Definition μ) :
    (catalog.put path definition).find? other =
      if catalog.absolute path = other then some definition else catalog.find? other := by
  simp only [find?, put, List.find?_cons]
  by_cases same : catalog.absolute path = other
  · simp [same]
  · rw [if_neg same]
    simp only [same, decide_false, List.find?_filter]
    congr 2
    funext entry
    by_cases found : entry.1 = other
    · simp [found, Ne.symm same]
    · simp [found]

end Catalog

/-- The gate that an import waits for, given the gates that are open. -/
def Import.awaited? {μ : Type} (opened : List String) : Import μ → Option String
  | .settled _ => none
  | .loading load _ => load.gate.filter fun gate => !opened.contains gate

/--
Looks at an import once: its outcome and the catalog that keeps it, or nothing
while the gate of its load is closed.
-/
def Catalog.poll
    {μ : Type}
    (catalog : Catalog μ)
    (opened : List String)
    (pending : Import μ) :
    Option (Except MountFault μ × Catalog μ) :=
  match pending.awaited? opened, pending with
  | some _, _ => none
  | none, .settled outcome => some (outcome, catalog)
  | none, .loading load cache => some (load.outcome, catalog.keep cache load.outcome)

end Hydration
