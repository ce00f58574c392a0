import Hydration.Proofs.Imports.Session

/-!
# The ledger of a chunk

The imports of a chunk and the chunk itself keep one account: the chunk was
called once for each import that has loaded it, it has a module as soon as one
of these loads has brought one, and whoever did not load it was given a module
that a load had brought.  Every use of the catalog keeps the accounts of all its
chunks, whatever the order in which imports are started and looked at.
-/

namespace Hydration

variable {μ : Type}

theorem Table.mem_entries_iff {α : Type} {table : Table α} {entry : α} :
    entry ∈ table.entries ↔ ∃ index, table.get? index = some entry :=
  List.mem_iff_getElem?

/-- The import has loaded the chunk with this key. -/
def Errand.IsLoadOf (errand : Errand μ) (key : Nat) : Prop :=
  errand.chunk = some key ∧ errand.pending.isLoading

/-- The import with its outcome. -/
def Errand.answered (errand : Errand μ) (outcome : Except MountFault μ) : Errand μ :=
  { errand with outcome := some outcome }

/-- A load of the chunk with this key has brought this module. -/
def Brought (errands : Table (Errand μ)) (key : Nat) (module : μ) : Prop :=
  ∃ index errand,
    errands.get? index = some errand ∧ errand.IsLoadOf key ∧
      errand.outcome = some (.ok module)

section

variable
  {errands : Table (Errand μ)} {errand found : Errand μ} {index other key : Nat} {module : μ}
  {outcome : Except MountFault μ} {chunk : Chunk μ}

theorem get?_answer_eq_some_iff (stored : errands.get? index = some errand) :
    (errands.modify index fun errand => errand.answered outcome).get? other = some found ↔
      other = index ∧ found = errand.answered outcome ∨
        other ≠ index ∧ errands.get? other = some found := by
  rw [Table.get?_modify]
  split
  · next same =>
      rw [same, stored]
      simp [@eq_comm _ found]
  · next apart => simp [apart]

theorem Brought.push (brought : Brought errands key module) :
    Brought (errands.push errand) key module := by
  obtain ⟨index, found, stored, loads, completed⟩ := brought
  exact ⟨index, found, Table.get?_push_eq_some_iff.mpr (.inl stored), loads, completed⟩

/-- What an import that was not complete brings does not undo what others have brought. -/
theorem Brought.answer
    (brought : Brought errands key module)
    (stored : errands.get? index = some errand)
    (unanswered : errand.outcome = none) :
    Brought (errands.modify index fun errand => errand.answered outcome) key module := by
  obtain ⟨other, found, storedToo, loads, completed⟩ := brought
  have apart : other ≠ index := by
    rintro rfl
    rw [stored] at storedToo
    cases storedToo
    rw [unanswered] at completed
    cases completed
  exact ⟨other, found, (get?_answer_eq_some_iff stored).mpr (.inr ⟨apart, storedToo⟩),
    loads, completed⟩

end

/-- The account of the chunk with the key `key` and of its imports. -/
structure Ledger (key : Nat) (chunk : Chunk μ) (errands : Table (Errand μ)) : Prop where
  /-- Each load is one of those for which the chunk was called. -/
  numbered : ∀ index errand, errands.get? index = some errand → errand.IsLoadOf key →
    ∃ number, number < chunk.calls ∧
      errand.pending = .loading (chunk.load number) (some key)
  /-- The chunk is called for imports only. -/
  called : 0 < chunk.calls →
    ∃ index errand, errands.get? index = some errand ∧ errand.IsLoadOf key
  /-- The chunk is called for each load anew. -/
  alone : chunk.calls ≤ 1 → ∀ first second errand found,
    errands.get? first = some errand → errand.IsLoadOf key →
      errands.get? second = some found → found.IsLoadOf key → first = second
  /-- An import that is complete has brought what it had to bring. -/
  answered : ∀ index errand outcome, errands.get? index = some errand →
    errand.chunk = some key → errand.outcome = some outcome →
      outcome = errand.pending.outcome
  /-- An import without a load of its own was given the module of a load. -/
  reused : ∀ index errand outcome, errands.get? index = some errand →
    errand.chunk = some key → errand.pending = .settled outcome →
      ∃ module, outcome = .ok module ∧ Brought errands key module
  /-- The module of the chunk is one that a load has brought. -/
  cached : ∀ module, chunk.cached = some module → Brought errands key module
  /-- A module that a load has brought is kept, until it is replaced by that of another. -/
  kept : ∀ module, Brought errands key module → chunk.cached ≠ none

namespace Ledger

variable
  {key index : Nat} {chunk : Chunk μ} {errands : Table (Errand μ)} {errand : Errand μ}
  {module : μ}

/-- A chunk that nobody has asked for. -/
theorem fresh
    (uncalled : chunk.calls = 0)
    (missing : chunk.cached = none)
    (unasked : ∀ index errand, errands.get? index = some errand → errand.chunk ≠ some key) :
    Ledger key chunk errands where
  numbered := fun index errand stored loads => (unasked index errand stored loads.1).elim
  called := fun positive => by omega
  alone := fun _ first _ errand _ stored loads => (unasked first errand stored loads.1).elim
  answered := fun index errand _ stored own => (unasked index errand stored own).elim
  reused := fun index errand _ stored own => (unasked index errand stored own).elim
  cached := fun module kept => by simp [missing] at kept
  kept := fun _ ⟨index, errand, stored, loads, _⟩ => (unasked index errand stored loads.1).elim

/-- Another chunk is asked, or this one gives its module away. -/
theorem share
    (ledger : Ledger key chunk errands)
    (unanswered : errand.outcome = none)
    (given : errand.chunk = some key →
      ∃ module, chunk.cached = some module ∧ errand.pending = .settled (.ok module)) :
    Ledger key chunk (errands.push errand) := by
  have idle : ¬errand.IsLoadOf key := by
    rintro ⟨own, loading⟩
    obtain ⟨module, _, settled⟩ := given own
    simp [settled, Import.isLoading] at loading
  have old {index found}
      (stored : (errands.push errand).get? index = some found)
      (loads : found.IsLoadOf key) :
      errands.get? index = some found := by
    rcases Table.get?_push_eq_some_iff.mp stored with old | ⟨_, rfl⟩
    · exact old
    · exact (idle loads).elim
  constructor
  case numbered =>
    intro index found stored loads
    exact ledger.numbered index found (old stored loads) loads
  case called =>
    intro positive
    obtain ⟨index, found, stored, loads⟩ := ledger.called positive
    exact ⟨index, found, Table.get?_push_eq_some_iff.mpr (.inl stored), loads⟩
  case alone =>
    intro few first second found other stored loads storedToo loadsToo
    exact ledger.alone few first second found other (old stored loads) loads
      (old storedToo loadsToo) loadsToo
  case answered =>
    intro index found outcome stored own completed
    rcases Table.get?_push_eq_some_iff.mp stored with old | ⟨_, rfl⟩
    · exact ledger.answered index found outcome old own completed
    · rw [unanswered] at completed
      cases completed
  case reused =>
    intro index found outcome stored own settled
    rcases Table.get?_push_eq_some_iff.mp stored with old | ⟨_, rfl⟩
    · obtain ⟨module, rfl, brought⟩ := ledger.reused index found outcome old own settled
      exact ⟨module, rfl, brought.push⟩
    · obtain ⟨module, cached, given⟩ := given own
      rw [given] at settled
      cases settled
      exact ⟨module, rfl, (ledger.cached module cached).push⟩
  case cached =>
    intro module cached
    exact (ledger.cached module cached).push
  case kept =>
    rintro module ⟨index, found, stored, loads, completed⟩
    exact ledger.kept module ⟨index, found, old stored loads, loads, completed⟩

/-- The chunk is loaded for an import. -/
theorem load (ledger : Ledger key chunk errands) (missing : chunk.cached = none) :
    Ledger key { chunk with calls := chunk.calls + 1 }
      (errands.push ⟨some key, .loading (chunk.load chunk.calls) (some key), none⟩) := by
  constructor
  case numbered =>
    intro index found stored loads
    rcases Table.get?_push_eq_some_iff.mp stored with old | ⟨_, rfl⟩
    · obtain ⟨number, below, pending⟩ := ledger.numbered index found old loads
      exact ⟨number, Nat.lt_succ_of_lt below, pending⟩
    · exact ⟨chunk.calls, Nat.lt_succ_self _, rfl⟩
  case called =>
    intro _
    exact ⟨errands.size, _, Table.get?_push_eq_some_iff.mpr (.inr ⟨rfl, rfl⟩), rfl, rfl⟩
  case alone =>
    intro few first second found other stored loads storedToo loadsToo
    -- The chunk was not called before, so that no older import has loaded it.
    have last {index found}
        (stored : (errands.push ⟨some key, .loading (chunk.load chunk.calls) (some key), none⟩).get?
          index = some found)
        (loads : found.IsLoadOf key) :
        index = errands.size := by
      rcases Table.get?_push_eq_some_iff.mp stored with old | ⟨last, _⟩
      · obtain ⟨number, below, _⟩ := ledger.numbered index found old loads
        simp only at few
        omega
      · exact last
    rw [last stored loads, last storedToo loadsToo]
  case answered =>
    intro index found outcome stored own completed
    rcases Table.get?_push_eq_some_iff.mp stored with old | ⟨_, rfl⟩
    · exact ledger.answered index found outcome old own completed
    · cases completed
  case reused =>
    intro index found outcome stored own settled
    rcases Table.get?_push_eq_some_iff.mp stored with old | ⟨_, rfl⟩
    · obtain ⟨module, rfl, brought⟩ := ledger.reused index found outcome old own settled
      exact ⟨module, rfl, brought.push⟩
    · cases settled
  case cached =>
    intro module cached
    simp [missing] at cached
  case kept =>
    rintro module ⟨index, found, stored, loads, completed⟩
    rcases Table.get?_push_eq_some_iff.mp stored with old | ⟨_, rfl⟩
    · exact ledger.kept module ⟨index, found, old, loads, completed⟩
    · cases completed

/-- An import is complete: if it is a load of this chunk, the chunk keeps the module it brings. -/
theorem answer
    {cached : Option μ}
    {outcome : Except MountFault μ}
    (ledger : Ledger key chunk errands)
    (stored : errands.get? index = some errand)
    (unanswered : errand.outcome = none)
    (brings : errand.pending.outcome = outcome)
    (keeping :
      (cached = chunk.cached ∧ ∀ module, errand.IsLoadOf key → outcome ≠ .ok module) ∨
        ∃ module, cached = some module ∧ errand.IsLoadOf key ∧ outcome = .ok module) :
    Ledger key { chunk with cached }
      (errands.modify index fun errand => errand.answered outcome) := by
  have origin {other found}
      (after : (errands.modify index fun errand => errand.answered outcome).get? other =
        some found) :
      ∃ before, errands.get? other = some before ∧
        before.chunk = found.chunk ∧ before.pending = found.pending := by
    rcases (get?_answer_eq_some_iff stored).mp after with ⟨rfl, rfl⟩ | ⟨_, old⟩
    · exact ⟨errand, stored, rfl, rfl⟩
    · exact ⟨found, old, rfl, rfl⟩
  have loadBefore {other found}
      (after : (errands.modify index fun errand => errand.answered outcome).get? other =
        some found)
      (loads : found.IsLoadOf key) :
      ∃ before, errands.get? other = some before ∧ before.IsLoadOf key ∧
        before.pending = found.pending := by
    obtain ⟨before, old, sameChunk, samePending⟩ := origin after
    exact ⟨before, old, ⟨sameChunk.trans loads.1, samePending ▸ loads.2⟩, samePending⟩
  have answeredHere :
      (errands.modify index fun errand => errand.answered outcome).get? index =
        some (errand.answered outcome) :=
    (get?_answer_eq_some_iff stored).mpr (.inl ⟨rfl, rfl⟩)
  constructor
  case numbered =>
    intro other found after loads
    obtain ⟨before, old, loadsToo, samePending⟩ := loadBefore after loads
    exact samePending ▸ ledger.numbered other before old loadsToo
  case called =>
    intro positive
    obtain ⟨other, found, before, loads⟩ := ledger.called positive
    by_cases same : other = index
    · subst same
      cases stored.symm.trans before
      exact ⟨other, _, answeredHere, loads⟩
    · exact ⟨other, found, (get?_answer_eq_some_iff stored).mpr (.inr ⟨same, before⟩), loads⟩
  case alone =>
    intro few first second _ _ after loads afterToo loadsToo
    obtain ⟨_, old, loadsBefore, _⟩ := loadBefore after loads
    obtain ⟨_, oldToo, loadsBeforeToo, _⟩ := loadBefore afterToo loadsToo
    exact ledger.alone few first second _ _ old loadsBefore oldToo loadsBeforeToo
  case answered =>
    intro other found outcome after own completed
    rcases (get?_answer_eq_some_iff stored).mp after with ⟨rfl, rfl⟩ | ⟨_, old⟩
    · exact (Option.some.inj completed).symm.trans brings.symm
    · exact ledger.answered other found outcome old own completed
  case reused =>
    intro other found outcome after own settled
    obtain ⟨before, old, sameChunk, samePending⟩ := origin after
    obtain ⟨module, rfl, brought⟩ :=
      ledger.reused other before outcome old (sameChunk.trans own) (samePending.trans settled)
    exact ⟨module, rfl, brought.answer stored unanswered⟩
  case cached =>
    intro module given
    rcases keeping with ⟨same, _⟩ | ⟨arrived, kept, loads, brought⟩
    · exact (ledger.cached module (same ▸ given)).answer stored unanswered
    · cases kept.symm.trans given
      exact ⟨index, _, answeredHere, loads, congrArg some brought⟩
  case kept =>
    rintro module ⟨other, found, after, loads, completed⟩
    rcases keeping with ⟨same, nothing⟩ | ⟨arrived, kept, _⟩
    · rcases (get?_answer_eq_some_iff stored).mp after with ⟨rfl, rfl⟩ | ⟨_, old⟩
      · exact (nothing module loads (Option.some.inj completed)).elim
      · exact fun missing =>
          ledger.kept module ⟨other, found, old, loads, completed⟩ (same ▸ missing)
    · exact fun missing => Option.some_ne_none arrived (kept.symm.trans missing)

end Ledger

end Hydration
