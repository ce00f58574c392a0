import Hydration.Proofs.Imports.Recording

/-!
# Imports follow the history of definitions

What an import brings is decided when it is started, by the last definition under
the absolute form of its name and by the loads of that definition that are
complete.  Whatever happens later, it brings this and nothing else, once the gate
that its load waits for, if any, was opened.  A load that fails, or that is complete
after its path was defined again, leaves no trace in the imports that come later.
-/

namespace Hydration

variable {μ : Type}

/-- An import goes on: it is as it was, or it is complete with what it had to bring. -/
def Errand.Continues (errand later : Errand μ) : Prop :=
  later = errand ∨
    errand.outcome = none ∧ later = errand.answered errand.pending.outcome

section

variable {errand later last : Errand μ}

theorem Errand.Continues.trans (first : errand.Continues later) (second : later.Continues last) :
    errand.Continues last := by
  rcases first with rfl | ⟨unanswered, rfl⟩
  · exact second
  · rcases second with rfl | ⟨answered, _⟩
    · exact .inr ⟨unanswered, rfl⟩
    · cases answered

theorem Errand.Continues.chunk (continues : errand.Continues later) :
    later.chunk = errand.chunk := by
  rcases continues with rfl | ⟨_, rfl⟩ <;> rfl

theorem Errand.Continues.pending (continues : errand.Continues later) :
    later.pending = errand.pending := by
  rcases continues with rfl | ⟨_, rfl⟩ <;> rfl

/-- What was started brings what it had to bring. -/
theorem Errand.Continues.outcome
    {outcome : Except MountFault μ}
    (continues : errand.Continues later)
    (unanswered : errand.outcome = none)
    (complete : later.outcome = some outcome) :
    outcome = errand.pending.outcome := by
  rcases continues with rfl | ⟨_, rfl⟩
  · rw [unanswered] at complete
    cases complete
  · exact (Option.some.inj complete).symm

end

/-- An import need not wait: it loads nothing, its load has no gate, or the gate was opened. -/
def Import.IsFree (pending : Import μ) (uses : List (Use μ)) : Prop :=
  ∀ load cache gate, pending = .loading load cache → load.gate = some gate →
    .release gate ∈ uses

theorem Import.IsFree.append
    {pending : Import μ}
    {early : List (Use μ)}
    (free : pending.IsFree early)
    (late : List (Use μ)) :
    pending.IsFree (early ++ late) :=
  fun load cache gate loading waits =>
    List.mem_append_left late (free load cache gate loading waits)

namespace Session

variable
  {base name : String} {uses early late : List (Use μ)} {use : Use μ} {before after : Session μ}
  {errand : Errand μ} {index number : Nat}

/-- No use takes an import back. -/
theorem Goes.continues
    (happened : before.Goes use after)
    (stored : before.errands.get? index = some errand) :
    ∃ later, after.errands.get? index = some later ∧ errand.Continues later := by
  have answers {other : Nat} {found : Errand μ} {outcome : Except MountFault μ}
      (storedToo : before.errands.get? other = some found)
      (unanswered : found.outcome = none)
      (brings : found.pending.outcome = outcome) :
      ∃ later,
        (before.errands.modify other fun errand => errand.answered outcome).get? index =
          some later ∧ errand.Continues later := by
    by_cases same : index = other
    · subst same
      cases storedToo.symm.trans stored
      exact ⟨_, (get?_answer_eq_some_iff stored).mpr (.inl ⟨rfl, rfl⟩),
        .inr ⟨unanswered, brings ▸ rfl⟩⟩
    · exact ⟨errand, (get?_answer_eq_some_iff storedToo).mpr (.inr ⟨same, stored⟩), .inl rfl⟩
  cases happened with
  | define | defineLazy | wait | release => exact ⟨errand, stored, .inl rfl⟩
  | settle | share | load =>
      exact ⟨errand, Table.get?_push_eq_some_iff.mpr (.inl stored), .inl rfl⟩
  | resolve other found outcome storedToo unanswered settled =>
      exact answers storedToo unanswered (congrArg Import.outcome settled)
  | arrive other found load cache storedToo unanswered loading =>
      exact answers storedToo unanswered (congrArg Import.outcome loading)

/-- A chart that is defined again while its load waits for a gate is the new one. -/
example :
    due "/" [.defineLazy "chart" [] ⟨some "gate", .ok "old"⟩, .start "chart",
      .define "/chart" "new", .release "gate", .poll 0] "chart" = .settled (.ok "new") := by
  rfl

end Session

end Hydration
