import Hydration.Proofs.LoadOnce
import Hydration.Proofs.Paths.Absolute
import Mathlib.Data.List.Induction

/-!
# What the history of a catalog says

What a catalog holds is read off the uses that were made of it: under a path
stands what was offered last under its absolute form, and a chunk has the module
of the load that was completed last without a failure.  Lazy definitions are
numbered in the order in which they are made, and the number is the key of the
chunk.
-/

namespace Hydration

variable {μ : Type}

/-- What is offered under a path: a module, or a numbered lazy definition with its chunk. -/
inductive Offer (μ : Type) where
  | ready (module : μ)
  | lazy (number : Nat) (chunk : Chunk μ)

def Offer.definition : Offer μ → Definition μ
  | ready module => .ready module
  | lazy number _ => .lazy number

namespace Use

/-- The path that a use defines, and what it offers there if `number` lazy definitions came before. -/
def offer? (number : Nat) : Use μ → Option (String × Offer μ)
  | define path module => some (path, .ready module)
  | defineLazy path loads lastLoad => some (path, .lazy number ⟨path, loads, lastLoad, 0, none⟩)
  | start _ | poll _ | release _ => none

/-- Whether a use makes a lazy definition. -/
def isLazy : Use μ → Bool
  | defineLazy _ _ _ => true
  | define _ _ | start _ | poll _ | release _ => false

/-- The path that a use defines. -/
def path? : Use μ → Option String
  | define path _ | defineLazy path _ _ => some path
  | start _ | poll _ | release _ => none

end Use

/-- All that is offered by the uses, oldest first, if `number` lazy definitions came before. -/
def offersFrom (number : Nat) : List (Use μ) → List (String × Offer μ)
  | [] => []
  | use :: later => (use.offer? number).toList ++ offersFrom (if use.isLazy then number + 1 else number) later

/-- What was offered last under an absolute path. -/
def offerAt? (base : String) (uses : List (Use μ)) (path : String) : Option (Offer μ) :=
  ((offersFrom 0 uses).findRev? fun entry => Path.absolute base entry.1 = path).map Prod.snd

/-- What was offered last under the absolute form of a name. -/
def latestOffer? (base : String) (uses : List (Use μ)) (name : String) : Option (Offer μ) :=
  offerAt? base uses (Path.absolute base name)

/-- The module of a complete import that has loaded the chunk itself. -/
def Errand.brought? (errand : Errand μ) (number : Nat) : Option μ :=
  match errand with
  | ⟨some own, .loading _ _, some (.ok module)⟩ => if own = number then some module else none
  | _ => none

/-- The module of a load of the chunk that the use completes. -/
def Moment.brings? (moment : Moment μ) (number : Nat) : Option μ :=
  match moment.use with
  | .poll index =>
      match (moment.session.errands.get? index).bind (·.brought? number) with
      | some _ => none
      | none =>
          ((moment.session.poll index).errands.get? index).bind (·.brought? number)
  | _ => none

namespace Session

/-- The module of the load of a lazy definition that was completed last without a failure. -/
def lastBrought? (base : String) (uses : List (Use μ)) (number : Nat) : Option μ :=
  (((beginning base).moments uses).filterMap (·.brings? number)).getLast?

/--
What an import of a name is due after these uses.  A module that is ready, or that
a load has brought, is given away; without one, the next load of the chunk is due.
-/
def due (base : String) (uses : List (Use μ)) (name : String) : Import μ :=
  match latestOffer? base uses name with
  | none => .settled (.error (Catalog.undefinedFault name))
  | some (.ready module) => .settled (.ok module)
  | some (.lazy number chunk) =>
      match lastBrought? base uses number with
      | some module => .settled (.ok module)
      | none =>
          .loading (chunk.load (((beginning base).run uses).calls number)) (some number)

end Session

section

variable {base name path : String} {uses early late : List (Use μ)} {use : Use μ} {number : Nat}

/-- What stands under an absolute path was offered for a path with that absolute form. -/
theorem absolute_of_offerAt? {offer : Offer μ} (found : offerAt? base uses path = some offer) :
    Path.absolute base path = path := by
  rw [offerAt?, List.findRev?_eq_find?_reverse, Option.map_eq_some_iff] at found
  obtain ⟨entry, first, _⟩ := found
  have same : Path.absolute base entry.1 = path := by simpa using List.find?_some first
  rw [← same, Path.absolute_absolute]

end

end Hydration
