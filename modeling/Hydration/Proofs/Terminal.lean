import Hydration.Proofs.Life.Reached

/-!
# The end of a binding

A destroyed binding takes no notice of what is asked of it.  But a call that
overrides the phase may have been under way when it ended: the building of an
instance, or what follows a destructor.  When that call goes on the binding
lives again, and only then.
-/

namespace Hydration

namespace Life

variable {key : BindingId} {before after : Life} {call : Call} {rest : List Call}

/-- The binding has ended, and nothing under way will override that. -/
structure IsOver (life : Life) : Prop where
  destroyed : life.phase = .destroyed
  unopposed : ∀ call ∈ life.calls, call.overrides = false

theorem Disturbed.isOver
    (happened : Disturbed key before after)
    (ended : before.IsOver) :
    after.IsOver := by
  obtain ⟨destroyed, unopposed⟩ := ended
  cases happened with
  | aside | born =>
      exact ⟨destroyed, unopposed⟩
  | complain | land =>
      exact ⟨destroyed, by simpa [push, Call.overrides] using unopposed⟩
  | attempt _ _ unmounted =>
      cases unmounted.symm.trans destroyed
  | revoke _ _ mounted =>
      cases mounted.symm.trans destroyed
  | wish _ _ under | forgo _ _ under =>
      rcases under with phase | phase <;> cases phase.symm.trans destroyed
  | doom _ _ living =>
      exact (living destroyed).elim

theorem Carried.isOver
    (calls : before.calls = call :: rest)
    (happened : Carried key call { before with calls := rest } after)
    (ended : before.IsOver) :
    after.IsOver := by
  obtain ⟨destroyed, unopposed⟩ := ended
  have gentle : call.overrides = false :=
    unopposed call (by rw [calls]; exact List.mem_cons_self)
  have outer : ∀ call ∈ rest, call.overrides = false := by
    intro other member
    exact unopposed other (by rw [calls]; exact List.mem_cons_of_mem _ member)
  cases happened with
  | constructFault | choose | equip | build | moveIn | vacated =>
      cases gentle
  | launchWaits _ _ current | launchLands _ _ current | arriveFault _ _ _ current
  | arriveModule _ _ _ current =>
      cases current.1.symm.trans destroyed
  | teardown _ mounted | dismantle _ mounted | retireMounted _ mounted =>
      cases mounted.symm.trans destroyed
  | remount _ _ unmounted =>
      cases unmounted.symm.trans destroyed
  | bury =>
      exact ⟨rfl, by simpa [push, Call.overrides] using outer⟩
  | notice | launchLate | arriveLate | settleWanted | settleUnwanted | teardownLate
  | dismantleLate | remountLate | retire =>
      exact ⟨destroyed, by simpa [push, Call.overrides] using outer⟩

/-- A call that overrides the phase does so now or leaves one that will. -/
theorem Carried.overrides
    (happened : Carried key call before after)
    (overrides : call.overrides) :
    after.phase ≠ .destroyed ∨ ∃ call ∈ after.calls, call.overrides := by
  cases happened with
  | constructFault | moveIn | vacated =>
      left
      intro destroyed
      cases destroyed
  | choose | equip | build =>
      exact .inr ⟨_, List.mem_cons_self, rfl⟩
  | _ => cases overrides

end Life

namespace Run

variable
  {free : Move → Prop} {page later : Page} {passed : List Page}
  {key : BindingId} {binding : Binding}

/-- A binding that is over is over at every later moment. -/
theorem isOver
    (run : Run free page passed later)
    (present : (page.life key).present)
    (ended : (page.life key).IsOver) :
    (later.life key).IsOver := by
  induction run with
  | begin =>
      exact ended
  | @move _ page move _ _ _ inductionHypothesis =>
      exact (page.disturbed_move move key).isOver inductionHypothesis
  | @step _ page earlier inductionHypothesis =>
      rcases page.step_life fun _ => earlier.present present with
        disturbed | ⟨call, outer, _, _, calls, carried⟩
      · exact disturbed.isOver inductionHypothesis
      · exact carried.isOver calls inductionHypothesis

/-- A call that overrides the phase stays under way until the binding has left its end. -/
theorem overridden
    (run : Run free page passed later)
    (present : (page.life key).present)
    (opposed : ∃ call ∈ (page.life key).calls, call.overrides) :
    (∃ moment ∈ later :: passed, (moment.life key).phase ≠ .destroyed) ∨
      ∃ call ∈ (later.life key).calls, call.overrides := by
  induction run with
  | begin =>
      exact .inr opposed
  | @move _ page move _ _ _ inductionHypothesis =>
      rcases inductionHypothesis with ⟨moment, member, living⟩ | ⟨call, member, overrides⟩
      · exact .inl ⟨moment, List.mem_cons_of_mem _ member, living⟩
      · exact .inr ⟨call, (page.disturbed_move move key).calls_subset member, overrides⟩
  | @step _ page earlier inductionHypothesis =>
      rcases inductionHypothesis with ⟨moment, member, living⟩ | ⟨call, member, overrides⟩
      · exact .inl ⟨moment, List.mem_cons_of_mem _ member, living⟩
      · rcases page.step_life fun _ => earlier.present present with
          disturbed | ⟨top, outer, _, _, calls, carried⟩
        · exact .inr ⟨call, disturbed.calls_subset member, overrides⟩
        · rw [calls] at member
          rcases List.mem_cons.mp member with rfl | outside
          · rcases carried.overrides overrides with living | left
            · exact .inl ⟨_, List.mem_cons_self, living⟩
            · exact .inr left
          · exact .inr ⟨call, carried.calls_subset outside, overrides⟩

/--
A destroyed binding is destroyed at every later moment, unless a call was under
way that overrides the phase; once all calls are over, that call has done so.
-/
theorem destroyed_unless_overridden
    (run : Run free page passed later)
    (found : page.binding? key = some binding)
    (destroyed : binding.phase = .destroyed) :
    ((∀ call ∈ page.stack, call.isOf key → call.overrides = false) →
        ∀ moment ∈ later :: passed, moment.phase key = .destroyed) ∧
      ((∃ call ∈ page.stack, call.isOf key ∧ call.overrides) → later.isAtRest →
        ∃ moment ∈ later :: passed, moment.phase key ≠ .destroyed) := by
  obtain ⟨present, phase, _⟩ := Page.life_of_found found
  have phaseAt {moment : Page} (member : moment ∈ later :: passed) :
      moment.phase key = (moment.life key).phase := by
    obtain ⟨_, before⟩ := run.moment member
    exact Page.phase_life (before.present present)
  refine ⟨?_, ?_⟩
  · intro unopposed moment member
    obtain ⟨_, before⟩ := run.moment member
    have ended : (page.life key).IsOver := by
      refine ⟨phase.trans destroyed, ?_⟩
      intro call own
      obtain ⟨under, isOf⟩ := List.mem_filter.mp own
      exact unopposed call under isOf
    rw [phaseAt member]
    exact (before.isOver present ended).destroyed
  · rintro ⟨call, member, isOf, overrides⟩ rest
    have opposed : ∃ call ∈ (page.life key).calls, call.overrides :=
      ⟨call, List.mem_filter.mpr ⟨member, isOf⟩, overrides⟩
    rcases run.overridden present opposed with ⟨moment, member, living⟩ | ⟨call, under, _⟩
    · exact ⟨moment, member, by rwa [phaseAt member]⟩
    · simp [Page.calls_of_rest rest key] at under

/-- A binding that was destroyed while no call was under way is not mounted again. -/
theorem destroyed_when_mounted :
    let page := Page.run 9 ((Page.lone (Hooks.standard .standard)
      ⟨"Lone", none, true, none, 1, 1, 0⟩ []).move (.ask (.bind .destroy 0)))
    (Page.run 9 (page.move (.ask (.bind .mount 0)))).phase 0 = .destroyed := by
  intro page
  have run : Run (fun _ => True) page _ (Page.run 9 (page.move (.ask (.bind .mount 0)))) :=
    (Run.begin.move (.ask (.bind .mount 0)) rfl trivial).onward 9
  have phase : (page.binding? 0).map Binding.phase = some .destroyed := rfl
  obtain ⟨binding, found, destroyed⟩ := Option.map_eq_some_iff.mp phase
  have empty : page.stack = [] := rfl
  obtain ⟨forever, _⟩ := run.destroyed_unless_overridden found destroyed
  exact forever (by simp [empty]) _ List.mem_cons_self

/--
A destructor that destroys its own binding: the binding ends while the
destructor runs, and is unmounted again when the destructor has run.
-/
theorem destroyed_while_dismantled :
    let start := Page.lone (Hooks.standard .standard)
      ⟨"Lone", none, true, none, 1, 0, 0⟩ [⟨.own .destroy, 1, none⟩]
    let mounted := Page.run 20 (start.move (.ask (.bind .mount 0)))
    let destroyed := Page.run 16 (mounted.move (.ask (.bind .unmount 0)))
    let later := Page.run 9 destroyed
    (∃ passed, Run (fun _ => True) start passed destroyed) ∧
      destroyed.phase 0 = .destroyed ∧
      (∃ passed, Run (fun _ => True) destroyed passed later) ∧
      later.phase 0 = .unmounted := by
  intro start mounted destroyed later
  have toMounted : Run (fun _ => True) start _ mounted :=
    (Run.begin.move (.ask (.bind .mount 0)) rfl trivial).onward 20
  have rest : mounted.isAtRest := by decide
  have toDestroyed : Run (fun _ => True) start _ destroyed :=
    (toMounted.move (.ask (.bind .unmount 0)) rest trivial).onward 16
  exact ⟨⟨_, toDestroyed⟩, by decide, ⟨_, Run.begin.onward 9⟩, by decide⟩

end Run

end Hydration
