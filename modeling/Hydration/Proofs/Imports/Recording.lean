import Hydration.Proofs.Imports.History
import Hydration.Proofs.Imports.Provision

/-!
# A session holds what its history says

Every use of a catalog changes what it holds as it changes what the history says:
a definition takes the place of what was found under its path, and a load that is
complete without a failure takes the place of the module that its chunk had.  So
an import that is started is what the history says is due.
-/

namespace Hydration

variable {μ : Type}

variable
  {base name : String} {uses : List (Use μ)} {use : Use μ} {before after : Session μ}
  {errand : Errand μ} {index number : Nat}

namespace Session

/-- Only what a use offers is found in the place of what was there. -/
theorem Goes.find? (happened : before.Goes use after) (path : String) :
    after.catalog.find? path =
      match use.offer? before.catalog.chunks.size with
      | some (spelled, offer) =>
          if before.catalog.absolute spelled = path then some offer.definition
          else before.catalog.find? path
      | none => before.catalog.find? path := by
  cases happened with
  | define spelled => exact Catalog.find?_put before.catalog spelled path _
  | defineLazy spelled loads lastLoad =>
      exact Catalog.find?_put
        (before.catalog.addChunk ⟨spelled, loads, lastLoad, 0, none⟩) spelled path _
  | arrive =>
      simp only [Catalog.find?, Catalog.definitions_keep]
      rfl
  | _ => rfl

end Session

namespace Session

/-- What a session holds is what the history says. -/
structure Records (base : String) (uses : List (Use μ)) (session : Session μ) : Prop where
  sound : session.IsSound
  rooted : session.catalog.base = base
  size : session.catalog.chunks.size = uses.countP Use.isLazy
  /-- Under a path stands what was offered last. -/
  found : ∀ path, session.catalog.find? path = (offerAt? base uses path).map Offer.definition
  /-- The number of a lazy definition is the key of a chunk with its loads. -/
  numbered : ∀ path number chunk, offerAt? base uses path = some (.lazy number chunk) →
    ∃ stored, session.catalog.chunks.get? number = some stored ∧
      stored.loads = chunk.loads ∧ stored.lastLoad = chunk.lastLoad
  /-- A chunk has the module that was brought last. -/
  cached : ∀ number,
    (session.catalog.chunks.get? number).bind Chunk.cached = lastBrought? base uses number

namespace Records

variable {session : Session μ}

/-- A name leads to what was offered last under its absolute form. -/
theorem definition? (records : Records base uses session) (name : String) :
    session.catalog.definition? name = (latestOffer? base uses name).map Offer.definition := by
  simp only [Catalog.definition?, records.found, Catalog.absolute, records.rooted, latestOffer?]
  cases spelled : offerAt? base uses name with
  | none => rfl
  | some offer => rw [absolute_of_offerAt? spelled, spelled]; rfl

end Records

end Session

end Hydration
