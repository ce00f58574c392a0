import Hydration.Proofs.Pairs.Listing
import Hydration.Proofs.Passive.Linked
import Hydration.Proofs.Resting
import Hydration.Proofs.Watching.Counting

/-!
# What hydration remembers

A binding that has not ended is one that hydration knows, or its end is under
way.  Hydration forgets bindings that have ended, and it forgets all of them when
it is going to end them one by one.  The strategies that it hands on to bindings
are those of the page; as long as these ask for monitors of the scene, all of
them do.
-/

namespace Hydration

/-- Whether a call ends a binding, or has its end asked for. -/
def Call.dooms (key : BindingId) : Call → Bool
  | request (.bind .destroy binding) | retire binding | bury binding => binding = key
  | destroyEach bindings => bindings.contains key
  | _ => false

namespace Life

variable {key : BindingId} {before after : Life} {call : Call}

theorem Disturbed.living
    (happened : Disturbed key before after)
    (living : before.phase ≠ .destroyed) :
    after.phase ≠ .destroyed := by
  cases happened with
  | attempt => simp [begin]
  | _ => exact living

/-- Only its burial brings a binding to its end. -/
theorem Carried.living
    (happened : Carried key call before after)
    (gentle : call ≠ .bury key)
    (living : before.phase ≠ .destroyed) :
    after.phase ≠ .destroyed := by
  cases happened with
  | bury => exact (gentle rfl).elim
  | arriveFault | constructFault => simp [fail]
  | moveIn | vacated => simp [push]
  | remount => simp [begin]
  | _ => exact living

end Life

namespace Page

/-- What has not ended is known to hydration, or is about to end. -/
def Remembers (page : Page) : Prop :=
  ∀ key, (page.life key).present → (page.life key).phase ≠ .destroyed →
    key ∈ page.modules ∨ ∃ call ∈ page.stack, call.dooms key

variable {page after : Page} {key : BindingId} {call : Call} {outer : List Call}

/-- Only the burial of a binding is a step to its end. -/
theorem living_step
    (stack : page.stack = call :: outer)
    (gentle : call ≠ .bury key)
    (present : (page.life key).present)
    (living : (page.life key).phase ≠ .destroyed) :
    (page.step.life key).phase ≠ .destroyed := by
  rcases page.step_life (fun _ => present) with disturbed | ⟨_, _, same, _, _, carried⟩
  · exact disturbed.living living
  · obtain ⟨rfl, _⟩ := List.cons.inj (same.symm.trans stack)
    exact carried.living gentle living

/-- A call that was to end a binding goes on to do so, unless the binding has ended. -/
theorem dooms_step
    (stack : page.stack = call :: outer)
    (dooms : call.dooms key)
    (present : (page.life key).present)
    (living : (page.life key).phase ≠ .destroyed) :
    (page.step.life key).phase = .destroyed ∨ ∃ call ∈ page.step.stack, call.dooms key := by
  rw [← phase_life present] at living
  have living : ({ page with stack := outer } : Page).phase key ≠ .destroyed := living
  cases call with
  | request request =>
      cases request with
      | bind verb binding =>
          cases verb with
          | destroy =>
              obtain rfl : binding = key := of_decide_eq_true dooms
              refine .inr ⟨.retire binding, ?_, decide_eq_true rfl⟩
              rw [step_of_stack stack]
              simp [carryOn, answer, obey, destroy, living, push]
          | _ => cases dooms
      | _ => cases dooms
  | retire binding =>
      obtain rfl : binding = key := of_decide_eq_true dooms
      refine .inr ⟨.bury binding, ?_, decide_eq_true rfl⟩
      rw [step_of_stack stack]
      simp only [carryOn, retire]
      split <;> simp [push]
  | bury binding =>
      obtain rfl : binding = key := of_decide_eq_true dooms
      obtain ⟨_, carried⟩ := step_carried stack (decide_eq_true rfl) present
      exact .inl carried.destroyed_of_bury
  | destroyEach bindings =>
      right
      rw [step_of_stack stack]
      cases bindings with
      | nil => cases dooms
      | cons first rest =>
          have doomed : key = first ∨ key ∈ rest := by simpa [Call.dooms] using dooms
          rcases doomed with rfl | later
          · exact ⟨.request (.bind .destroy key), by simp [carryOn, destroyNext, push],
              decide_eq_true rfl⟩
          · exact ⟨.destroyEach rest, by simp [carryOn, destroyNext, push],
              by simpa [Call.dooms] using later⟩
  | _ => cases dooms

/-- What hydration forgets has ended, or is to be ended. -/
theorem mem_modules_step
    (stack : page.stack = call :: outer)
    (member : key ∈ page.modules) :
    key ∈ page.step.modules ∨ page.phase key = .destroyed ∨
      ∃ call ∈ page.step.stack, call.dooms key := by
  rw [step_of_stack stack]
  have kept {after : Page} (same : after.modules = page.modules) :
      key ∈ after.modules ∨ page.phase key = .destroyed ∨ ∃ call ∈ after.stack, call.dooms key :=
    .inl (by rwa [same])
  by_cases tame : call.isTame
  · exact kept (Remains.carryOn { page with stack := outer } tame).modules
  · cases call with
    | hydrate hooks elements =>
        cases elements with
        | nil => exact kept rfl
        | cons element rest =>
            simp only [carryOn, hydrateNext]
            split
            · exact kept rfl
            · exact .inl (List.mem_append_left _ member)
    | destroyEach bindings =>
        cases bindings with
        | nil => exact kept rfl
        | cons => exact kept rfl
    | request request =>
        cases request with
        | hydrate root =>
            by_cases ended : page.phase key = .destroyed
            · exact .inr (.inl ended)
            · exact .inl (List.mem_filter.mpr ⟨member, decide_eq_true ended⟩)
        | destroyAll =>
            refine .inr (.inr ⟨.destroyEach page.modules, List.mem_cons_self, ?_⟩)
            simpa [Call.dooms] using member
        | _ => exact (tame rfl).elim
    | _ => exact (tame rfl).elim

/-- Hydration knows the binding that it makes. -/
theorem mem_modules_of_born
    (stack : page.stack = call :: outer)
    (absent : page.binding? key = none)
    (present : (page.step.binding? key).isSome) :
    key ∈ page.step.modules := by
  rw [step_of_stack stack] at present ⊢
  have unmade {after : Page}
      (size : after.bindings.size = page.bindings.size)
      (present : (after.binding? key).isSome) :
      key ∈ after.modules := by
    have gone : after.binding? key = none := by
      rw [binding?, Table.get?_eq_none_iff, size]
      exact (Table.get?_eq_none_iff _ _).mp absent
    rw [gone] at present
    cases present
  by_cases tame : call.isTame
  · exact unmade (Remains.carryOn { page with stack := outer } tame).size present
  · cases call with
    | hydrate hooks elements =>
        cases elements with
        | nil => exact unmade rfl present
        | cons element rest =>
            cases found : ({ page with stack := outer } : Page).labelOf? hooks element with
            | none =>
                rw [carryOn, hydrateNext_of_skipped found] at present ⊢
                exact unmade rfl present
            | some label =>
                rw [carryOn, hydrateNext_of_bound found] at present ⊢
                obtain ⟨binding, made⟩ := Option.isSome_iff_exists.mp present
                have made := (binding?_enlist _ _ key).symm.trans made
                split at made
                · next last =>
                    rw [last]
                    exact List.mem_append_right _ List.mem_cons_self
                · cases absent.symm.trans made
    | destroyEach bindings =>
        cases bindings with
        | nil => exact unmade rfl present
        | cons => exact unmade rfl present
    | request request =>
        cases request with
        | hydrate | destroyAll => exact unmade rfl present
        | _ => exact (tame rfl).elim
    | _ => exact (tame rfl).elim

theorem Remembers.step
    (remembers : page.Remembers)
    (planned : ∀ key, (page.life key).Planned key) :
    page.step.Remembers := by
  cases stack : page.stack with
  | nil => rwa [step_of_nil stack]
  | cons call outer =>
      intro key present living
      cases was : page.binding? key with
      | none => exact .inl (mem_modules_of_born stack was present)
      | some binding =>
          have there : (page.life key).present := (life_of_found was).1
          have before : (page.life key).phase ≠ .destroyed := fun ended =>
            living (destroyed_step there (planned key) ended)
          rcases remembers key there before with known | ⟨doom, member, dooms⟩
          · rcases mem_modules_step stack known with stays | ended | pending
            · exact .inl stays
            · exact (before ((phase_life there).symm.trans ended)).elim
            · exact .inr pending
          · rw [stack] at member
            rcases List.mem_cons.mp member with rfl | later
            · exact .inr ((dooms_step stack dooms there before).resolve_left living)
            · obtain ⟨added, pushed⟩ := exists_pushed stack
              exact .inr ⟨doom, by rw [pushed]; exact List.mem_append_right _ later, dooms⟩

/-- At rest hydration knows every binding that has not ended. -/
theorem Remembers.mem_modules
    {binding : Binding}
    (remembers : page.Remembers)
    (rest : page.isAtRest)
    (found : page.binding? key = some binding)
    (living : binding.phase ≠ .destroyed) :
    key ∈ page.modules := by
  obtain ⟨present, phase, _⟩ := life_of_found found
  refine (remembers key present (by rwa [phase])).resolve_right ?_
  rintro ⟨call, member, _⟩
  rw [stack_of_rest rest] at member
  cases member

/-- The strategies that are in force, or will be, ask for monitors of the scene. -/
structure Equipped (page : Page) : Prop where
  hooks : page.hooks.factories.AreOfScene
  bonds : ∀ key bond, page.bond? key = some bond → bond.hooks.factories.AreOfScene
  calls : ∀ hooks elements, .hydrate hooks elements ∈ page.stack → hooks.factories.AreOfScene

theorem Equipped.of_remains
    (equipped : page.Equipped)
    (tame : page.IsTame)
    (remains : page.Remains after) :
    after.Equipped := by
  obtain ⟨added, stack, gentle⟩ := remains.stack
  refine ⟨by rw [remains.hooks]; exact equipped.hooks, ?_, ?_⟩
  · intro key bond found
    rw [remains.bond] at found
    exact equipped.bonds key bond found
  · intro hooks elements member
    rw [stack] at member
    rcases List.mem_append.mp member with new | old
    · cases gentle tame _ new
    · exact equipped.calls hooks elements old

/-- Calls that bring no other strategies under way may be added. -/
theorem Equipped.push
    {calls : List Call}
    (equipped : page.Equipped)
    (among :
      ∀ hooks elements, .hydrate hooks elements ∈ calls → hooks.factories.AreOfScene) :
    (page.push calls).Equipped :=
  ⟨equipped.hooks, equipped.bonds, fun hooks elements member =>
    (List.mem_append.mp member).elim (among hooks elements) (equipped.calls hooks elements)⟩

theorem Equipped.enlist
    {binding : Binding}
    (equipped : page.Equipped)
    (ofScene : binding.hooks.factories.AreOfScene) :
    (page.enlist binding).Equipped := by
  refine ⟨equipped.hooks, ?_, equipped.calls⟩
  intro key bond found
  rw [bond?, binding?_enlist] at found
  split at found
  · cases found
    exact ofScene
  · exact equipped.bonds key bond found

theorem Equipped.hydrateNext
    {hooks : Hooks}
    {elements : List ElementId}
    (equipped : page.Equipped)
    (ofScene : hooks.factories.AreOfScene) :
    (page.hydrateNext hooks elements).Equipped := by
  cases elements with
  | nil => exact equipped
  | cons element rest =>
      have waiting : (page.push [.hydrate hooks rest]).Equipped := by
        refine equipped.push fun other elements member => ?_
        cases List.mem_singleton.mp member
        exact ofScene
      cases found : page.labelOf? hooks element with
      | none =>
          rw [hydrateNext_of_skipped found]
          exact waiting
      | some label =>
          rw [hydrateNext_of_bound found]
          exact (waiting.enlist ofScene).push (by simp)

theorem Equipped.step (equipped : page.Equipped) (tame : page.IsTame) : page.step.Equipped := by
  cases stack : page.stack with
  | nil => rwa [step_of_nil stack]
  | cons call outer =>
      have popped : ({ page with stack := outer } : Page).Equipped := by
        refine ⟨equipped.hooks, equipped.bonds, fun hooks elements member => ?_⟩
        exact equipped.calls hooks elements (by rw [stack]; exact List.mem_cons_of_mem _ member)
      rw [step_of_stack stack]
      by_cases gentle : call.isTame
      · exact popped.of_remains tame (.carryOn _ gentle)
      · cases call with
        | hydrate hooks elements =>
            exact popped.hydrateNext
              (equipped.calls hooks elements (by rw [stack]; exact List.mem_cons_self))
        | destroyEach bindings =>
            cases bindings with
            | nil => exact popped
            | cons => exact popped.push (by simp)
        | request request =>
            cases request with
            | hydrate root =>
                refine ⟨popped.hooks, popped.bonds, fun hooks elements member => ?_⟩
                rcases List.mem_cons.mp member with new | old
                · cases new
                  exact popped.hooks
                · exact popped.calls hooks elements old
            | destroyAll =>
                refine ⟨popped.hooks, popped.bonds, fun hooks elements member => ?_⟩
                exact popped.calls hooks elements ((List.mem_cons.mp member).resolve_left (by simp))
            | _ => exact (gentle rfl).elim
        | _ => exact (gentle rfl).elim

end Page

end Hydration
