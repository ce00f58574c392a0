import Hydration.Proofs.Life.Wishes

/-!
# Convergence to the latest wish

Whatever hooks, callbacks, constructors and destructors ask for, and in whatever
order imports come in: once no call is under way, a binding is what was last
wanted of it, or its latest attempt has failed, or it waits for the import of
that attempt.
-/

namespace Hydration

namespace Page

/-- How many imports of a binding are unfinished for an attempt. -/
def importsFor (page : Page) (key : BindingId) (attempt : Nat) : Nat :=
  page.executor.unfinished.countP fun task => task.binding = key ∧ task.attempt = attempt

/-- Whether what an import brings moves a mounting binding on: it fails, or an instance is built. -/
def MovesOn (page : Page) (key : BindingId) (attempt : Nat) : Prop :=
  ∀ outcome,
    (page.arrive key attempt outcome).phase key = .unmounted ∨
      ∃ stage, .construct key attempt stage ∈ (page.arrive key attempt outcome).stack

variable {key : BindingId} {page : Page} {binding : Binding}

theorem count_importsOf (page : Page) (key : BindingId) (attempt : Nat) :
    (page.importsOf key).count attempt = page.importsFor key attempt := by
  simp only [importsOf, importsFor, Multiset.coe_count, List.count_eq_countP, List.countP_map,
    List.countP_filter]
  exact List.countP_congr fun task _ => by simp [and_comm]

theorem phase_fail
    (found : page.binding? key = some binding)
    (attempt : Nat)
    (fault : MountFault) :
    (page.fail key attempt fault).phase key = .unmounted := by
  have changed : (page.fail key attempt fault).binding? key =
      some { binding with phase := .unmounted } := by
    have unmounted := page.binding?_changeBinding key key
      fun binding => { binding with phase := .unmounted }
    rwa [if_pos rfl, found, Option.map_some] at unmounted
  rw [phase_of_found changed]

theorem movesOn_of_mounting
    (found : page.binding? key = some binding)
    (mounting : binding.phase = .mounting) :
    page.MovesOn key binding.attempt := by
  have current : isCurrent binding binding.attempt = true := by
    simp [isCurrent, mounting]
  intro outcome
  cases outcome with
  | error fault =>
      left
      simp only [arrive, found, current, if_true]
      exact phase_fail found binding.attempt fault
  | ok module =>
      right
      refine ⟨.choosing module, ?_⟩
      simp only [arrive, found, current, if_true, consult]
      split <;> simp [push]

end Page

namespace Run

variable {start page : Page} {passed : List Page} {key : BindingId} {binding : Binding}

/-- At rest a wish is done, unless the latest attempt has failed or is still under way. -/
theorem wish_done
    {free : Move → Prop}
    (begins : start.Begins)
    (run : Run free start passed page)
    (rest : page.isAtRest)
    (found : page.binding? key = some binding) :
    (binding.phase = .mounted → binding.wanted = true) ∧
      (binding.phase = .unmounted → binding.wanted = true →
        ∃ fault, .failed key binding.attempt fault ∈ page.history) := by
  obtain ⟨_, _, wishes⟩ := (run.lives begins key).laws
  obtain ⟨_, phase, wanted, attempt, _⟩ := Page.life_of_found found
  have calls : (page.life key).calls = [] := Page.calls_of_rest rest key
  rw [← phase, ← wanted, ← attempt]
  refine ⟨?_, ?_⟩
  · intro mounted
    by_contra unwanted
    obtain ⟨call, member, _⟩ := wishes.unwanted mounted (by simpa using unwanted)
    simp [calls] at member
  · intro unmounted isWanted
    rcases wishes.wanted unmounted isWanted with ⟨fault, failed⟩ | returning
    · exact ⟨fault, List.mem_of_mem_filter failed⟩
    · simp [calls] at returning

/-- At rest a binding that is mounting waits for one import, which moves it on. -/
theorem import_awaited
    {free : Move → Prop}
    (begins : start.Begins)
    (run : Run free start passed page)
    (rest : page.isAtRest)
    (found : page.binding? key = some binding)
    (mounting : binding.phase = .mounting) :
    page.importsFor key binding.attempt = 1 ∧ page.MovesOn key binding.attempt := by
  obtain ⟨attempts, _, _⟩ := (run.lives begins key).laws
  obtain ⟨_, phase, _, attempt, _⟩ := Page.life_of_found found
  have calls : (page.life key).calls = [] := Page.calls_of_rest rest key
  have carried := attempts.carried (phase.trans mounting)
  have once := attempts.once
  simp only [Life.carriers, calls, List.filterMap_nil, Multiset.coe_nil, add_zero]
    at carried once
  refine ⟨?_, Page.movesOn_of_mounting found mounting⟩
  rw [← attempt, ← Page.count_importsOf]
  exact Multiset.count_eq_one_of_mem once carried

/--
A binding at rest is mounted only if it is wanted mounted.  If it is wanted and
unmounted, its latest attempt has ended in a fault.  If it is mounting, there is
exactly one unfinished import for the latest attempt, and that one moves it on.
-/
theorem converges
    (begins : start.Begins)
    (run : Run (fun _ => True) start passed page)
    (rest : page.isAtRest)
    (found : page.binding? key = some binding) :
    (binding.phase = .mounted → binding.wanted = true) ∧
      (binding.phase = .unmounted → binding.wanted = true →
        ∃ fault, .failed key binding.attempt fault ∈ page.history) ∧
      (binding.phase = .mounting →
        page.importsFor key binding.attempt = 1 ∧ page.MovesOn key binding.attempt) := by
  obtain ⟨mounted, unmounted⟩ := run.wish_done begins rest found
  exact ⟨mounted, unmounted, run.import_awaited begins rest found⟩

/-- A mount whose import is queued waits for that import alone. -/
theorem converges_queued :
    let start := Page.lone { Hooks.standard .standard with spawning := .queued }
      ⟨"Lone", none, true, none, 1, 1, 0⟩ []
    let page := Page.run 5 (start.move (.ask (.bind .mount 0)))
    page.isAtRest ∧
      ∃ binding, page.binding? 0 = some binding ∧ binding.phase = .mounting ∧
        page.importsFor 0 binding.attempt = 1 := by
  intro start page
  have run : Run (fun _ => True) start _ page :=
    (Run.begin.move (.ask (.bind .mount 0)) rfl trivial).onward 5
  have phase : (page.binding? 0).map Binding.phase = some .mounting := rfl
  obtain ⟨binding, found, mounting⟩ := Option.map_eq_some_iff.mp phase
  obtain ⟨_, _, waits⟩ := Run.converges (Page.begins_lone _ _ _) run rfl found
  exact ⟨rfl, binding, found, mounting, (waits mounting).1⟩

end Run

end Hydration
