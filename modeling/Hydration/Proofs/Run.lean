import Hydration.Page.Step

/-!
# Runs of a page

A run is what happens to a page from its beginning on: whenever the page is at
rest the host may make a move, and whatever is under way goes on step by step.
Scripts may ask for anything at any step, so a run passes through every order in
which hooks, constructors and destructors call back.

A run remembers the pages it has passed, so that laws can speak of every moment
and not only of the last one.
-/

namespace Hydration

/-- A binding that nothing has happened to. -/
structure Binding.IsFresh (binding : Binding) : Prop where
  phase : binding.phase = .unmounted
  wanted : binding.wanted = false
  attempt : binding.attempt = 0
  occupant : binding.occupant = none
  watch : binding.watch = none

/-- A binding at the start of its life is fresh. -/
theorem Binding.isFresh_fresh
    (label name : String)
    (element : ElementId)
    (context : Except ContextFault Context)
    (hooks : Hooks) :
    (Binding.fresh label name element context hooks).IsFresh :=
  ⟨rfl, rfl, rfl, rfl, rfl⟩

/--
A page on which nothing has happened: no call is under way, no import is
unfinished, and no binding has lived.  Its elements, plugins, modules, scripts
and callbacks are whatever the host has prepared.
-/
structure Page.Begins (page : Page) : Prop where
  rest : page.stack = []
  unfinished : page.executor.unfinished = []
  fresh : ∀ binding ∈ page.bindings.entries, binding.IsFresh
  history : page.history = []

/-- A page with one binding, whose module has one constructor, and with one script. -/
def Page.lone (hooks : Hooks) (constructor : Constructor) (actions : List Action) : Page :=
  { Page.empty .standard .standard with
    catalog := ⟨"/", [("lone", .ready ⟨some 0, []⟩)], .empty⟩
    constructors := ⟨[constructor]⟩
    scripts := ⟨[⟨actions⟩]⟩
    bindings := ⟨[.fresh "lone" "lone" 0 (.ok .always) hooks]⟩ }

theorem Page.begins_lone (hooks : Hooks) (constructor : Constructor) (actions : List Action) :
    (Page.lone hooks constructor actions).Begins := by
  refine ⟨rfl, rfl, ?_, rfl⟩
  intro binding member
  rw [List.mem_singleton.mp member]
  exact Binding.isFresh_fresh _ _ _ _ _

/-- What the host may do with a page at rest. -/
inductive Move where
  | ask (request : Request)
  /-- Sets the callback of a binding. -/
  | callback (binding : BindingId) (notice : Notice) (script : ScriptId)
  | script (actions : List Action)
  | constructor (constructor : Constructor)
  | plugin (plugin : Plugin)
  | catalog (catalog : Catalog Module)
  | registry (registry : Registry)
  /-- Makes, keeps and drops monitors, watches and subscriptions of its own. -/
  | scene (scene : Scene)
  /-- Makes a binding without hydration. -/
  | bind (label name : String) (element : ElementId) (context : Except ContextFault Context)
      (hooks : Hooks)

/-- A page right after a move of the host. -/
def Page.move (page : Page) : Move → Page
  | .ask request => page.push [.request request]
  | .callback key notice script => page.setCallback key notice script
  | .script actions => page.addScript actions
  | .constructor constructor => page.addConstructor constructor
  | .plugin plugin => page.addPlugin plugin
  | .catalog catalog => page.setCatalog catalog
  | .registry registry => { page with registry }
  | .scene scene => { page with scene }
  | .bind label name element context hooks =>
      page.addBinding (.fresh label name element context hooks)

/--
The runs from `start` on which the host makes only moves that are `free`,
with the pages passed, newest first, and the page that is reached.
-/
inductive Run (free : Move → Prop) (start : Page) : List Page → Page → Prop where
  | begin :
      Run free start [] start
  | move
      {passed : List Page}
      {page : Page}
      (move : Move)
      (earlier : Run free start passed page)
      (rest : page.isAtRest)
      (permitted : free move) :
      Run free start (page :: passed) (page.move move)
  | step
      {passed : List Page}
      {page : Page}
      (earlier : Run free start passed page) :
      Run free start (page :: passed) page.step

namespace Page

/-- The pages that `run limit` passes, newest first. -/
def trail : Nat → Page → List Page
  | 0, _ => []
  | limit + 1, page => if page.isAtRest then [] else trail limit page.step ++ [page]

theorem stack_of_rest {page : Page} (rest : page.isAtRest) : page.stack = [] := by
  simpa [isAtRest] using rest

theorem step_of_rest {page : Page} (rest : page.isAtRest) : page.step = page := by
  simp [step, stack_of_rest rest]

theorem step_of_nil {page : Page} (stack : page.stack = []) : page.step = page := by
  simp [step, stack]

theorem step_of_stack
    {page : Page}
    {call : Call}
    {rest : List Call}
    (stack : page.stack = call :: rest) :
    page.step = { page with stack := rest }.carryOn call := by
  simp [step, stack]

/-- A page that comes to rest does so in one way only. -/
theorem run_eq_run
    {page : Page}
    {first second : Nat}
    (rests : (run first page).isAtRest)
    (restsToo : (run second page).isAtRest) :
    run first page = run second page := by
  have still {page : Page} (limit : Nat) (rest : page.isAtRest) : run limit page = page := by
    cases limit with
    | zero => rfl
    | succ limit => rw [run, if_pos rest]
  induction first generalizing page second with
  | zero => exact (still second rests).symm
  | succ first inductionHypothesis =>
      cases second with
      | zero => exact still (first + 1) restsToo
      | succ second =>
          simp only [run] at rests restsToo ⊢
          split
          · rfl
          · next busy =>
              rw [if_neg busy] at rests restsToo
              exact inductionHypothesis rests restsToo

end Page

namespace Run

variable {free : Move → Prop} {start page : Page} {passed : List Page}

/-- A run goes on step by step until the page is at rest or the limit is reached. -/
theorem onward (earlier : Run free start passed page) (limit : Nat) :
    Run free start (Page.trail limit page ++ passed) (Page.run limit page) := by
  induction limit generalizing passed page with
  | zero =>
      exact earlier
  | succ limit inductionHypothesis =>
      simp only [Page.trail, Page.run]
      split
      · exact earlier
      · have later := inductionHypothesis earlier.step
        simpa only [List.append_assoc, List.singleton_append] using later

/-- What a request of the host makes of a page at rest is reached by a run. -/
theorem perform
    {request : Request}
    (earlier : Run free start passed page)
    (rest : page.isAtRest)
    (permitted : free (.ask request)) :
    ∃ later, Run free start later (page.perform request) :=
  ⟨_, (earlier.move (.ask request) rest permitted).onward Page.stepLimit⟩

/-- Every moment of a run is reached by a run that passes no other pages. -/
theorem moment_within
    {earlier : Page}
    (run : Run free start passed page)
    (member : earlier ∈ page :: passed) :
    ∃ before, Run free start before earlier ∧ before ⊆ passed := by
  induction run with
  | begin =>
      rw [List.mem_singleton.mp member]
      exact ⟨_, .begin, List.Subset.refl _⟩
  | move move before rest permitted inductionHypothesis =>
      rcases List.mem_cons.mp member with rfl | old
      · exact ⟨_, before.move move rest permitted, List.Subset.refl _⟩
      · obtain ⟨passed, run, within⟩ := inductionHypothesis old
        exact ⟨passed, run, List.subset_cons_of_subset _ within⟩
  | step before inductionHypothesis =>
      rcases List.mem_cons.mp member with rfl | old
      · exact ⟨_, before.step, List.Subset.refl _⟩
      · obtain ⟨passed, run, within⟩ := inductionHypothesis old
        exact ⟨passed, run, List.subset_cons_of_subset _ within⟩

/-- Every moment of a run is reached by a run. -/
theorem moment
    {earlier : Page}
    (run : Run free start passed page)
    (member : earlier ∈ page :: passed) :
    ∃ before, Run free start before earlier := by
  obtain ⟨before, reached, _⟩ := run.moment_within member
  exact ⟨before, reached⟩

/-- A run is one of a host that is free to do more. -/
theorem mono
    {more : Move → Prop}
    (run : Run free start passed page)
    (among : ∀ move, free move → more move) :
    Run more start passed page := by
  induction run with
  | begin => exact .begin
  | move move _ rest permitted inductionHypothesis =>
      exact inductionHypothesis.move move rest (among move permitted)
  | step _ inductionHypothesis => exact inductionHypothesis.step

/-- Runs can be joined. -/
theorem trans
    {middle : Page}
    {before : List Page}
    (first : Run free start before middle)
    (second : Run free middle passed page) :
    Run free start (passed ++ before) page := by
  induction second with
  | begin => exact first
  | move move _ rest permitted inductionHypothesis =>
      exact inductionHypothesis.move move rest permitted
  | step _ inductionHypothesis =>
      exact inductionHypothesis.step

end Run

end Hydration
