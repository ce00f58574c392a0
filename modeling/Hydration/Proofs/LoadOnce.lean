import Hydration.Proofs.Imports.Ledger

/-!
# Lazy modules are loaded once, unless imports overlap

A chunk gets its module when a load is complete, but it is called when an import
starts.  So an import that starts while a load is under way loads the chunk
again, and the two imports may bring different modules.  As long as no load has
failed, this is the only way to load a chunk twice.
-/

namespace Hydration

variable {μ : Type}

namespace Session

variable
  {before after : Session μ} {use : Use μ} {key index : Nat} {chunk : Chunk μ}
  {errand : Errand μ}

/-- All that a use of the catalog can do to the chunks and to the imports. -/
inductive Goes (before : Session μ) : Use μ → Session μ → Prop where
  | define (path : String) (module : μ) :
      Goes before (.define path module)
        { before with catalog := before.catalog.define path module }
  | defineLazy (path : String) (loads : List (Load μ)) (lastLoad : Load μ) :
      Goes before (.defineLazy path loads lastLoad)
        { before with
          catalog := before.catalog.defineLazy path ⟨path, loads, lastLoad, 0, none⟩ }
  /-- What is defined under the name, if anything, is not loaded on demand. -/
  | settle
      (name : String)
      (outcome : Except MountFault μ)
      (found : before.catalog.chunkOf? name = none) :
      Goes before (.start name)
        { before with errands := before.errands.push ⟨none, .settled outcome, none⟩ }
  /-- The chunk behind the name has its module. -/
  | share
      (name : String)
      (key : Nat)
      (chunk : Chunk μ)
      (module : μ)
      (found : before.catalog.chunkOf? name = some key)
      (stored : before.catalog.chunks.get? key = some chunk)
      (cached : chunk.cached = some module) :
      Goes before (.start name)
        { before with
          errands := before.errands.push ⟨some key, .settled (.ok module), none⟩ }
  /-- The chunk behind the name has no module yet. -/
  | load
      (name : String)
      (key : Nat)
      (chunk : Chunk μ)
      (found : before.catalog.chunkOf? name = some key)
      (stored : before.catalog.chunks.get? key = some chunk)
      (missing : chunk.cached = none) :
      Goes before (.start name)
        { before with
          catalog := (before.catalog.load key chunk (some key)).catalog
          errands :=
            before.errands.push
              ⟨some key, .loading (chunk.load chunk.calls) (some key), none⟩ }
  /-- The import is complete already, or the gate of its load is closed. -/
  | wait (index : Nat) :
      Goes before (.poll index) before
  | resolve
      (index : Nat)
      (errand : Errand μ)
      (outcome : Except MountFault μ)
      (stored : before.errands.get? index = some errand)
      (unanswered : errand.outcome = none)
      (settled : errand.pending = .settled outcome) :
      Goes before (.poll index)
        { before with
          errands := before.errands.modify index fun errand => errand.answered outcome }
  | arrive
      (index : Nat)
      (errand : Errand μ)
      (load : Load μ)
      (cache : Option Nat)
      (stored : before.errands.get? index = some errand)
      (unanswered : errand.outcome = none)
      (loading : errand.pending = .loading load cache)
      (opened : ∀ gate, load.gate = some gate → gate ∈ before.opened) :
      Goes before (.poll index)
        { before with
          catalog := before.catalog.keep cache load.outcome
          errands :=
            before.errands.modify index fun errand => errand.answered load.outcome }
  | release (gate : String) :
      Goes before (.release gate) { before with opened := gate :: before.opened }

theorem goes_start (linked : before.catalog.IsLinked) (name : String) :
    before.Goes (.start name) (before.start name) := by
  cases found : before.catalog.chunkOf? name with
  | none =>
      obtain ⟨outcome, started⟩ := Catalog.start_of_chunkOf?_eq_none found
      simpa [start, started, found] using Goes.settle name outcome found
  | some key =>
      obtain ⟨chunk, stored⟩ := linked.chunkOf? found
      cases cached : chunk.cached with
      | none =>
          have started := Catalog.start_of_not_cached found stored cached
          simpa [start, started, found, Catalog.load]
            using Goes.load name key chunk found stored cached
      | some module =>
          have started := Catalog.start_of_cached found stored cached
          simpa [start, started, found] using
            Goes.share name key chunk module found stored cached

theorem goes_poll (before : Session μ) (index : Nat) :
    before.Goes (.poll index) (before.poll index) := by
  unfold poll
  split
  · next own pending stored =>
      cases pending with
      | settled outcome => exact .resolve index _ outcome stored rfl rfl
      | loading load cache =>
          split
          · exact .wait index
          · next outcome later ready =>
              obtain ⟨arrived, opened⟩ := Catalog.poll_loading_eq_some ready
              cases arrived
              exact .arrive index _ load cache stored rfl rfl opened
  · exact .wait index

theorem goes_use (linked : before.catalog.IsLinked) (use : Use μ) :
    before.Goes use (before.use use) := by
  cases use with
  | define path module => exact .define path module
  | defineLazy path loads lastLoad => exact .defineLazy path loads lastLoad
  | start name => exact goes_start linked name
  | poll index => exact goes_poll before index
  | release gate => exact .release gate

/-- The accounts of all chunks are kept. -/
structure IsSound (session : Session μ) : Prop where
  linked : session.catalog.IsLinked
  /-- Imports are remembered with chunks that are there. -/
  known : ∀ index errand key, session.errands.get? index = some errand →
    errand.chunk = some key → key < session.catalog.chunks.size
  owned : ∀ index errand, session.errands.get? index = some errand → errand.IsOwned
  ledger : ∀ key chunk, session.catalog.chunks.get? key = some chunk →
    Ledger key chunk session.errands

theorem isSound_beginning (base : String) : (beginning base : Session μ).IsSound where
  linked := fun _ member => by cases member
  known := fun _ _ _ stored => by cases stored
  owned := fun _ _ stored => by cases stored
  ledger := fun _ _ stored => by cases stored

theorem Goes.linked (happened : before.Goes use after) (linked : before.catalog.IsLinked) :
    after.catalog.IsLinked := by
  cases happened with
  | define path module => exact linked.put (by simp)
  | defineLazy path loads lastLoad =>
      refine (linked.chunks (by simp)).put fun key lazily => ?_
      cases lazily
      simp
  | load =>
      exact linked.chunks (by simp)
  | arrive index errand load cache =>
      intro entry member key lazily
      rw [Catalog.definitions_keep] at member
      rw [Catalog.size_chunks_keep]
      exact linked entry member key lazily
  | settle | share | wait | resolve | release => exact linked

theorem Goes.size_chunks_le (happened : before.Goes use after) :
    before.catalog.chunks.size ≤ after.catalog.chunks.size := by
  cases happened with
  | defineLazy => simp [Catalog.defineLazy, Catalog.addChunk, Catalog.put]
  | arrive => simp
  | load => simp [Catalog.load]
  | define | settle | share | wait | resolve | release => exact Nat.le_refl _

/-- An import that is there afterwards was there before, or was started for a name. -/
theorem Goes.origin
    (happened : before.Goes use after)
    (stored : after.errands.get? index = some errand) :
    (∃ earlier, before.errands.get? index = some earlier ∧
      earlier.chunk = errand.chunk ∧ earlier.pending = errand.pending) ∨
      errand.IsOwned ∧ ∃ name, before.catalog.chunkOf? name = errand.chunk := by
  cases happened with
  | define | defineLazy | wait | release => exact .inl ⟨errand, stored, rfl, rfl⟩
  | settle name _ found | share name _ _ _ found =>
      rcases Table.get?_push_eq_some_iff.mp stored with old | ⟨_, rfl⟩
      · exact .inl ⟨errand, old, rfl, rfl⟩
      · exact .inr ⟨fun load cache loading => (by cases loading), name, found⟩
  | load name key chunk found =>
      rcases Table.get?_push_eq_some_iff.mp stored with old | ⟨_, rfl⟩
      · exact .inl ⟨errand, old, rfl, rfl⟩
      · exact .inr ⟨fun load cache loading => ⟨key, (by cases loading; rfl), rfl⟩, name, found⟩
  | resolve index found _ storedToo | arrive index found _ _ storedToo =>
      rcases (get?_answer_eq_some_iff storedToo).mp stored with ⟨rfl, rfl⟩ | ⟨_, old⟩
      · exact .inl ⟨found, storedToo, rfl, rfl⟩
      · exact .inl ⟨errand, old, rfl, rfl⟩

/-- The account of a chunk is kept, and that of a new chunk is opened. -/
theorem Goes.ledger
    (happened : before.Goes use after)
    (sound : before.IsSound)
    (stored : after.catalog.chunks.get? key = some chunk) :
    Ledger key chunk after.errands := by
  cases happened with
  | define | wait | release =>
      exact sound.ledger key chunk stored
  | defineLazy =>
      rw [Catalog.chunks_defineLazy] at stored
      rcases Table.get?_push_eq_some_iff.mp stored with old | ⟨rfl, rfl⟩
      · exact sound.ledger key chunk old
      · refine .fresh rfl rfl fun index errand found own => ?_
        exact Nat.lt_irrefl _ (sound.known index errand _ found own)
  | settle name outcome =>
      exact (sound.ledger key chunk stored).share rfl fun own => by cases own
  | share name other found module _ storedToo cached =>
      refine (sound.ledger key chunk stored).share rfl fun own => ?_
      cases own
      cases storedToo.symm.trans stored
      exact ⟨module, cached, rfl⟩
  | load name other found _ storedToo missing =>
      rw [Catalog.load, Table.get?_modify] at stored
      split at stored
      · next same =>
          subst same
          rw [storedToo] at stored
          cases stored
          exact (sound.ledger key found storedToo).load missing
      · next apart =>
          refine (sound.ledger key chunk stored).share rfl fun own => ?_
          exact (apart (Option.some.inj own).symm).elim
  | resolve index errand outcome found unanswered settled =>
      refine (sound.ledger key chunk stored).answer found unanswered
        (congrArg Import.outcome settled) (.inl ⟨rfl, fun module loads => ?_⟩)
      simp [Errand.IsLoadOf, settled, Import.isLoading] at loads
  | arrive index errand load cache found unanswered loading =>
      obtain ⟨other, rfl, own⟩ := sound.owned index errand found load cache loading
      have brings : errand.pending.outcome = load.outcome := congrArg Import.outcome loading
      by_cases same : key = other
      · subst same
        have loads : errand.IsLoadOf key := ⟨own, by simp [loading, Import.isLoading]⟩
        cases arrived : load.outcome with
        | error cause =>
            rw [arrived] at brings stored
            refine (sound.ledger key chunk stored).answer found unanswered brings
              (.inl ⟨rfl, fun module _ arrived => ?_⟩)
            cases arrived
        | ok module =>
            rw [arrived] at brings stored
            rw [Catalog.keep, Table.get?_modify, if_pos rfl, Option.map_eq_some_iff] at stored
            obtain ⟨earlier, storedToo, rfl⟩ := stored
            exact (sound.ledger key earlier storedToo).answer found unanswered brings
              (.inr ⟨module, rfl, loads, rfl⟩)
      · rw [Catalog.get?_keep_of_ne _ same] at stored
        refine (sound.ledger key chunk stored).answer found unanswered brings
          (.inl ⟨rfl, fun module loads => ?_⟩)
        exact (same (Option.some.inj (loads.1.symm.trans own))).elim

theorem IsSound.goes (sound : before.IsSound) (happened : before.Goes use after) :
    after.IsSound where
  linked := happened.linked sound.linked
  known := by
    intro index errand key stored own
    rcases happened.origin stored with ⟨earlier, old, sameChunk, _⟩ | ⟨_, name, found⟩
    · exact Nat.lt_of_lt_of_le (sound.known index earlier key old (sameChunk.trans own))
        happened.size_chunks_le
    · exact Nat.lt_of_lt_of_le (sound.linked.chunkOf?_lt (found.trans own))
        happened.size_chunks_le
  owned := by
    intro index errand stored
    rcases happened.origin stored with ⟨earlier, old, sameChunk, samePending⟩ | ⟨owned, _⟩
    · intro load cache loading
      rw [← sameChunk]
      exact sound.owned index earlier old load cache (samePending.trans loading)
    · exact owned
  ledger := fun _ _ stored => happened.ledger sound stored

theorem IsSound.afterUse (sound : before.IsSound) (use : Use μ) : (before.use use).IsSound :=
  sound.goes (goes_use sound.linked use)

theorem IsSound.afterRun (sound : before.IsSound) (uses : List (Use μ)) :
    (before.run uses).IsSound := by
  induction uses generalizing before with
  | nil => exact sound
  | cons use later inductionHypothesis => exact inductionHypothesis (sound.afterUse use)

/-- What is complete stays so. -/
theorem Goes.stored
    (happened : before.Goes use after)
    (stored : before.errands.get? index = some errand)
    (completed : errand.outcome.isSome) :
    after.errands.get? index = some errand := by
  cases happened with
  | define | defineLazy | wait | release => exact stored
  | settle | share | load => exact Table.get?_push_eq_some_iff.mpr (.inl stored)
  | resolve other found _ storedToo unanswered | arrive other found _ _ storedToo unanswered =>
      refine (get?_answer_eq_some_iff storedToo).mpr (.inr ⟨?_, stored⟩)
      rintro rfl
      cases storedToo.symm.trans stored
      rw [unanswered] at completed
      cases completed

/-- What has failed stays so. -/
theorem Goes.isUnfailed_before
    (happened : before.Goes use after)
    (unfailed : after.IsUnfailed key) :
    before.IsUnfailed key := by
  intro errand member own
  obtain ⟨index, stored⟩ := Table.mem_entries_iff.mp member
  cases completed : errand.outcome with
  | none => simp [Errand.hasFailed, completed]
  | some outcome =>
      have kept := happened.stored stored (by rw [completed]; rfl)
      exact unfailed errand (Table.mem_entries_iff.mpr ⟨index, kept⟩) own

theorem isUnfailed_of_run
    {uses : List (Use μ)}
    (sound : before.IsSound)
    (unfailed : (before.run uses).IsUnfailed key) :
    before.IsUnfailed key := by
  induction uses generalizing before with
  | nil => exact unfailed
  | cons use later inductionHypothesis =>
      exact (goes_use sound.linked use).isUnfailed_before
        (inductionHypothesis (sound.afterUse use) unfailed)

end Session

/-- The use loads the chunk. -/
def Moment.Loads (moment : Moment μ) (key : Nat) : Prop :=
  ∃ name chunk,
    moment.use.started? = some name ∧ moment.session.catalog.chunkOf? name = some key ∧
      moment.session.catalog.chunks.get? key = some chunk ∧ chunk.cached = none

namespace Session

variable {session : Session μ} {use : Use μ} {key : Nat} {chunk : Chunk μ}

/-- What arrives in a chunk is no call. -/
theorem calls_keep
    (session : Session μ)
    (cache : Option Nat)
    (outcome : Except MountFault μ)
    (errands : Table (Errand μ))
    (key : Nat) :
    calls { session with catalog := session.catalog.keep cache outcome, errands } key =
      session.calls key := by
  simp only [calls, Catalog.keep]
  split
  · next own module =>
      rw [Table.get?_modify]
      split
      · cases session.catalog.chunks.get? key <;> rfl
      · rfl
  · rfl

/-- A chunk is called by the uses that load it. -/
theorem Goes.calls
    {after : Session μ}
    (happened : session.Goes use after)
    (key : Nat) :
    Moment.Loads ⟨session, use⟩ key ∧ after.calls key = session.calls key + 1 ∨
      ¬Moment.Loads ⟨session, use⟩ key ∧ after.calls key = session.calls key := by
  cases happened with
  | define | wait | resolve | release =>
      refine .inr ⟨?_, rfl⟩
      rintro ⟨_, _, starts, _⟩
      cases starts
  | defineLazy =>
      refine .inr ⟨?_, ?_⟩
      · rintro ⟨_, _, starts, _⟩
        cases starts
      · simp only [Session.calls, Catalog.chunks_defineLazy, Table.get?_push]
        split
        · next last => simp [(Table.get?_eq_none_iff _ _).mpr (Nat.le_of_eq last.symm)]
        · rfl
  | settle name _ found =>
      refine .inr ⟨?_, rfl⟩
      rintro ⟨_, _, starts, foundToo, _⟩
      cases starts
      cases found.symm.trans foundToo
  | share name own chunk module found stored cached =>
      refine .inr ⟨?_, rfl⟩
      rintro ⟨_, _, starts, foundToo, storedToo, missing⟩
      cases starts
      cases found.symm.trans foundToo
      cases stored.symm.trans storedToo
      cases cached.symm.trans missing
  | load name own chunk found stored missing =>
      simp only [Session.calls, Catalog.load, Table.get?_modify]
      split
      · next same =>
          subst same
          refine .inl ⟨⟨name, chunk, rfl, found, stored, missing⟩, ?_⟩
          rw [stored]
          rfl
      · next apart =>
          refine .inr ⟨?_, rfl⟩
          rintro ⟨_, _, starts, foundToo, _⟩
          cases starts
          cases found.symm.trans foundToo
          exact apart rfl
  | arrive =>
      refine .inr ⟨?_, calls_keep _ _ _ _ key⟩
      rintro ⟨_, _, starts, _⟩
      cases starts

/-- While the only load is under way, the chunk has no module. -/
theorem IsSound.loads_of_overlaps
    (sound : session.IsSound)
    (overlaps : Moment.Overlaps ⟨session, use⟩ key)
    (once : session.calls key ≤ 1) :
    Moment.Loads ⟨session, use⟩ key := by
  obtain ⟨starting, errand, member, own, loading, unanswered⟩ := overlaps
  obtain ⟨name, starts, found⟩ := Option.bind_eq_some_iff.mp starting
  obtain ⟨index, stored⟩ := Table.mem_entries_iff.mp member
  obtain ⟨chunk, storedToo⟩ := sound.linked.chunkOf? found
  rw [calls_of_stored storedToo] at once
  have ledger := sound.ledger key chunk storedToo
  refine ⟨name, chunk, starts, found, storedToo, Option.eq_none_iff_forall_ne_some.mpr ?_⟩
  intro module cached
  obtain ⟨other, complete, storedOther, loads, brought⟩ := ledger.cached module cached
  cases ledger.alone once index other errand complete stored ⟨own, loading⟩ storedOther loads
  cases stored.symm.trans storedOther
  rw [brought] at unanswered
  cases unanswered

/-- A load that is under way was called for. -/
theorem IsSound.calls_pos_of_overlaps
    (sound : session.IsSound)
    (overlaps : Moment.Overlaps ⟨session, use⟩ key) :
    0 < session.calls key := by
  obtain ⟨starting, errand, member, own, loading, _⟩ := overlaps
  obtain ⟨name, _, found⟩ := Option.bind_eq_some_iff.mp starting
  obtain ⟨index, stored⟩ := Table.mem_entries_iff.mp member
  obtain ⟨chunk, storedToo⟩ := sound.linked.chunkOf? found
  obtain ⟨number, below, _⟩ :=
    (sound.ledger key chunk storedToo).numbered index errand stored ⟨own, loading⟩
  rw [calls_of_stored storedToo]
  exact Nat.zero_lt_of_lt below

/-- A chunk that lacks its module while no load is under way was never loaded. -/
theorem IsSound.calls_eq_zero_of_loads
    (sound : session.IsSound)
    (unfailed : session.IsUnfailed key)
    (loads : Moment.Loads ⟨session, use⟩ key)
    (apart : ¬Moment.Overlaps ⟨session, use⟩ key) :
    session.calls key = 0 := by
  obtain ⟨name, chunk, starts, found, stored, missing⟩ := loads
  have ledger := sound.ledger key chunk stored
  rw [calls_of_stored stored]
  refine Nat.eq_zero_of_not_pos fun positive => ?_
  obtain ⟨index, errand, storedToo, own, loading⟩ := ledger.called positive
  have member := Table.mem_entries_iff.mpr ⟨index, storedToo⟩
  cases completed : errand.outcome with
  | none =>
      exact apart ⟨Option.bind_eq_some_iff.mpr ⟨name, starts, found⟩, errand, member, own,
        loading, by rw [completed]; rfl⟩
  | some outcome =>
      cases outcome with
      | error cause =>
          have whole := unfailed errand member own
          simp [Errand.hasFailed, completed] at whole
      | ok module =>
          exact ledger.kept module ⟨index, errand, storedToo, ⟨own, loading⟩, completed⟩ missing

/-- One use more: a chunk is loaded a second time exactly when imports overlap. -/
theorem IsSound.calls_use_le_one_iff
    (sound : session.IsSound)
    (unfailed : session.IsUnfailed key) :
    (session.use use).calls key ≤ 1 ↔
      session.calls key ≤ 1 ∧ ¬Moment.Overlaps ⟨session, use⟩ key := by
  rcases (goes_use sound.linked use).calls key with ⟨loads, calls⟩ | ⟨idle, calls⟩
  case inl =>
    rw [calls]
    constructor
    · intro once
      refine ⟨by omega, fun overlaps => ?_⟩
      have positive := sound.calls_pos_of_overlaps overlaps
      omega
    · rintro ⟨_, apart⟩
      have unloaded := sound.calls_eq_zero_of_loads unfailed loads apart
      omega
  case inr =>
    rw [calls]
    constructor
    · intro once
      exact ⟨once, fun overlaps => idle (sound.loads_of_overlaps overlaps once)⟩
    · exact And.left

/-- Over any number of uses, a chunk is loaded again exactly when imports overlap. -/
theorem IsSound.calls_run_le_one_iff
    {uses : List (Use μ)}
    (sound : session.IsSound)
    (unfailed : (session.run uses).IsUnfailed key) :
    (session.run uses).calls key ≤ 1 ↔
      session.calls key ≤ 1 ∧ ∀ moment ∈ session.moments uses, ¬moment.Overlaps key := by
  induction uses generalizing session with
  | nil => simp [Session.run, moments]
  | cons use later inductionHypothesis =>
      have unfailedNow : session.IsUnfailed key := isUnfailed_of_run sound unfailed
      rw [Session.run, inductionHypothesis (sound.afterUse use) unfailed,
        sound.calls_use_le_one_iff unfailedNow, moments, List.forall_mem_cons, and_assoc]

end Session

/-- As long as the chunk was called once, all its imports bring what the first load brings. -/
theorem Ledger.outcome_eq_first
    {key index : Nat}
    {chunk : Chunk μ}
    {errands : Table (Errand μ)}
    {errand : Errand μ}
    {outcome : Except MountFault μ}
    (ledger : Ledger key chunk errands)
    (once : chunk.calls ≤ 1)
    (stored : errands.get? index = some errand)
    (own : errand.chunk = some key)
    (completed : errand.outcome = some outcome) :
    outcome = (chunk.load 0).outcome := by
  have ofLoad {index : Nat} {errand : Errand μ} {outcome : Except MountFault μ}
      (stored : errands.get? index = some errand)
      (loads : errand.IsLoadOf key)
      (completed : errand.outcome = some outcome) :
      outcome = (chunk.load 0).outcome := by
    obtain ⟨number, below, pending⟩ := ledger.numbered index errand stored loads
    have first : number = 0 := by omega
    rw [ledger.answered index errand outcome stored loads.1 completed, pending, first]
    rfl
  cases pending : errand.pending with
  | loading load cache =>
      exact ofLoad stored ⟨own, by rw [pending, Import.isLoading]⟩ completed
  | settled given =>
      obtain ⟨module, rfl, other, source, storedToo, loads, brought⟩ :=
        ledger.reused index errand given stored own pending
      rw [ledger.answered index errand outcome stored own completed, pending]
      exact ofLoad storedToo loads brought

/--
A lazy definition none of whose loads has failed is loaded at most once if and
only if no import of it is started while a load of it is under way; and then all
imports of it that are complete bring what that load brings.
-/
theorem Session.loads_once_iff
    (base : String)
    (uses : List (Use μ))
    (key : Nat)
    (chunk : Chunk μ)
    (stored : ((beginning base).run uses).catalog.chunks.get? key = some chunk)
    (unfailed : ((beginning base).run uses).IsUnfailed key) :
    (chunk.calls ≤ 1 ↔
        ∀ moment ∈ (beginning base).moments uses, ¬moment.Overlaps key) ∧
      ((∀ moment ∈ (beginning base).moments uses, ¬moment.Overlaps key) →
        ∀ errand ∈ ((beginning base).run uses).errands.entries,
          errand.chunk = some key → ∀ outcome, errand.outcome = some outcome →
            outcome = (chunk.load 0).outcome) := by
  have sound : (beginning base : Session μ).IsSound := isSound_beginning base
  have once : chunk.calls ≤ 1 ↔
      ∀ moment ∈ (beginning base).moments uses, ¬moment.Overlaps key := by
    rw [← calls_of_stored stored, sound.calls_run_le_one_iff unfailed]
    exact and_iff_right (Nat.zero_le 1)
  refine ⟨once, fun apart errand member own outcome completed => ?_⟩
  obtain ⟨index, storedToo⟩ := Table.mem_entries_iff.mp member
  exact ((sound.afterRun uses).ledger key chunk stored).outcome_eq_first (once.mpr apart)
    storedToo own completed

/-- A chart that is imported again after the first import is complete. -/
theorem Session.loads_once_in_turn :
    let uses : List (Use String) :=
      [.defineLazy "chart" [] ⟨none, .ok "A"⟩,
        .start "chart", .poll 0, .start "/chart", .poll 1]
    ∃ chunk, ((beginning "/").run uses).catalog.chunks.get? 0 = some chunk ∧ chunk.calls ≤ 1 ∧
      ∀ errand ∈ ((beginning "/").run uses).errands.entries,
        errand.chunk = some 0 → ∀ outcome, errand.outcome = some outcome → outcome = .ok "A" := by
  intro uses
  have apart : ∀ moment ∈ (beginning "/").moments uses, ¬moment.Overlaps 0 := by decide
  obtain ⟨once, same⟩ := loads_once_iff "/" uses 0 _ rfl (by decide)
  exact ⟨_, rfl, once.mpr apart, same apart⟩

/--
A chart that is imported again while its first load waits for a gate: it is
loaded twice, and the two imports bring different modules.
-/
theorem Session.loaded_twice_together :
    let uses : List (Use String) :=
      [.defineLazy "chart" [⟨some "gate", .ok "A"⟩] ⟨none, .ok "B"⟩,
        .start "chart", .poll 0, .start "chart", .poll 1, .release "gate", .poll 0]
    let session := (beginning "/").run uses
    session.IsUnfailed 0 ∧ session.calls 0 = 2 ∧
      (session.errands.entries.map fun errand => (errand.chunk, errand.outcome)) =
        [(some 0, some (.ok "A")), (some 0, some (.ok "B"))] := by
  refine ⟨?_, ?_, ?_⟩
  · decide
  · rfl
  · rfl

end Hydration
