import Hydration.Proofs.Life.Basic
import Hydration.Proofs.Unfinished

/-!
# How the parts of a page show in a life

The operations of a page are put together from a few primitive changes: calls
are pushed, events recorded, bindings changed, tasks spawned.  Each of them has
one equation here that says what it does to the life of a binding; nothing else
of a page shows in a life.
-/

namespace Hydration

namespace Life

@[simp] theorem push_nil (life : Life) : life.push [] = life := rfl

end Life

namespace Page

variable {key other : BindingId}

/-- Only bindings, the stack, the executor, the count of instances and the history show. -/
theorem life_congr
    {page changed : Page}
    (bindings : changed.bindings = page.bindings)
    (stack : changed.stack = page.stack)
    (executor : changed.executor = page.executor)
    (instances : changed.instances = page.instances)
    (history : changed.history = page.history) :
    changed.life key = page.life key := by
  simp only [life, importsOf, binding?, bindings, stack, executor, instances, history]

@[simp] theorem life_push (page : Page) (calls : List Call) :
    (page.push calls).life key =
      (page.life key).push (calls.filter (Call.isOf key)) := by
  simp only [life, push, Life.push, List.filter_append, binding?, importsOf]

/-- The life of a binding is the same as long as its own calls under way are the same. -/
theorem life_replace
    {page : Page}
    {stack : List Call}
    (same : stack.filter (Call.isOf key) = page.stack.filter (Call.isOf key)) :
    ({ page with stack } : Page).life key = page.life key := by
  simp [life, same, binding?, importsOf]

theorem life_pop
    {page : Page}
    {call : Call}
    {outer : List Call}
    (stack : page.stack = call :: outer)
    (foreign : call.isOf key = false) :
    ({ page with stack := outer } : Page).life key = page.life key :=
  life_replace (by simp [stack, foreign])

theorem life_record_of_isOf {event : Event} (page : Page) (own : event.isOf key) :
    (page.record event).life key =
      { page.life key with events := event :: (page.life key).events } := by
  simp only [life, record, binding?, importsOf, List.filter_cons_of_pos own]

@[simp] theorem life_record_of_not_isOf
    {event : Event}
    (page : Page)
    (foreign : event.isOf key = false) :
    (page.record event).life key = page.life key := by
  have dropped : (event :: page.history).filter (Event.isOf key) =
      page.history.filter (Event.isOf key) := by
    simp [foreign]
  simp only [life, record, binding?, importsOf, dropped]

/-- What imports report as they start, and what they do to the catalog, show in no life. -/
theorem life_reported
    (page : Page)
    (reports : List Catalog.LoadReport)
    (catalog : Catalog Module) :
    ({ page with catalog, history := reports.map Event.loading ++ page.history } : Page).life key =
      page.life key := by
  have aside : (reports.map Event.loading).filter (Event.isOf key) = [] := by
    simp [Event.isOf]
  simp only [life, binding?, importsOf, List.filter_append, aside, List.nil_append]

@[simp] theorem life_changeBinding_other
    (page : Page)
    (change : Binding → Binding)
    (different : other ≠ key) :
    (page.changeBinding other change).life key = page.life key := by
  have same : (page.changeBinding other change).binding? key = page.binding? key := by
    rw [binding?_changeBinding, if_neg (Ne.symm different)]
  simp only [life, importsOf, same]
  rfl

/-- A change of a binding shows in its phase, wish, attempt and occupant. -/
theorem life_changeBinding
    {binding : Binding}
    (page : Page)
    (found : page.binding? key = some binding)
    (change : Binding → Binding) :
    (page.changeBinding key change).life key =
      { page.life key with
        phase := (change binding).phase
        wanted := (change binding).wanted
        attempt := (change binding).attempt
        occupant := (change binding).occupant } := by
  have changed :
      (page.changeBinding key change).binding? key = some (change binding) := by
    rw [binding?_changeBinding, if_pos rfl, found, Option.map_some]
  simp only [life, importsOf, changed, found, Option.isSome_some, Option.map_some,
    Option.getD_some, Option.bind_some]
  rfl

/-- Callbacks of a binding do not show in its life. -/
theorem life_setCallback (page : Page) (notice : Notice) (script : ScriptId) :
    (page.setCallback key notice script).life key = page.life key := by
  rw [setCallback]
  cases found : page.binding? key with
  | none =>
      have absent (change : Binding → Binding) :
          (page.changeBinding key change).binding? key = none := by
        rw [binding?_changeBinding, if_pos rfl, found, Option.map_none]
      simp only [life, importsOf, absent, found]
      rfl
  | some binding =>
      rw [life_changeBinding page found]
      simp [life, found]

/-- A fresh binding at the end of the table changes no life. -/
theorem life_addBinding
    {binding : Binding}
    (page : Page)
    (fresh : binding.IsFresh) :
    (page.addBinding binding).life key = page.life key ∨
      (page.addBinding binding).life key = { page.life key with present := true } := by
  have found := page.binding?_addBinding binding key
  by_cases atEnd : key = page.bindings.size
  · have absent : page.binding? key = none := by
      rw [binding?, Table.get?_eq_none_iff, atEnd]
    rw [if_pos atEnd] at found
    right
    simp only [life, importsOf, found, absent, Option.isSome_some, Option.map_some,
      Option.map_none, Option.getD_some, Option.getD_none, Option.bind_some,
      Option.bind_none, fresh.phase, fresh.wanted, fresh.attempt, fresh.occupant]
    rfl
  · rw [if_neg atEnd] at found
    left
    simp only [life, importsOf, found]
    rfl

/-- An executor shows in the attempts whose imports are unfinished. -/
theorem life_executor (page : Page) (executor : Executor Task) :
    ({ page with executor } : Page).life key =
      { page.life key with
        imports :=
          ((executor.unfinished.filter fun task => task.binding = key).map Task.attempt :
            List Nat) } := rfl

/-- Executors with the same unfinished tasks show in the same way. -/
theorem life_executor_same
    {executor : Executor Task}
    (page : Page)
    (same : (executor.unfinished : Multiset Task) = page.executor.unfinished) :
    ({ page with executor } : Page).life key = page.life key := by
  have perm : executor.unfinished.Perm page.executor.unfinished :=
    Multiset.coe_eq_coe.mp same
  rw [life_executor]
  simp only [life, importsOf, Life.mk.injEq, Multiset.coe_eq_coe, true_and, and_true]
  exact (perm.filter _).map _

/-- One more unfinished task shows in the life of its binding and in no other. -/
theorem life_executor_more
    {executor : Executor Task}
    {task : Task}
    (page : Page)
    (more : (executor.unfinished : Multiset Task) = task ::ₘ page.executor.unfinished) :
    ({ page with executor } : Page).life key =
      if task.binding = key then
        { page.life key with imports := task.attempt ::ₘ (page.life key).imports }
      else page.life key := by
  have perm : executor.unfinished.Perm (task :: page.executor.unfinished) :=
    Multiset.coe_eq_coe.mp more
  rw [life_executor]
  split
  · next own =>
      simp only [life, importsOf, Life.mk.injEq, Multiset.cons_coe, Multiset.coe_eq_coe,
        true_and, and_true]
      simpa [own] using (perm.filter fun task => task.binding = key).map Task.attempt
  · next foreign =>
      simp only [life, importsOf, Life.mk.injEq, Multiset.coe_eq_coe, true_and, and_true]
      simpa [foreign] using (perm.filter fun task => task.binding = key).map Task.attempt

theorem phase_life {page : Page} (present : (page.life key).present) :
    page.phase key = (page.life key).phase := by
  obtain ⟨binding, found⟩ := Option.isSome_iff_exists.mp present
  simp [phase, life, found]

/-- At rest no call of any binding is under way. -/
theorem calls_of_rest {page : Page} (rest : page.isAtRest) (key : BindingId) :
    (page.life key).calls = [] := by
  simp [life, stack_of_rest rest]

/-- A binding has calls while one of its own is on top of the stack. -/
theorem calls_ne_nil_of_stack
    {page : Page}
    {key : BindingId}
    {call : Call}
    {outer : List Call}
    (stack : page.stack = call :: outer)
    (own : call.isOf key) :
    (page.life key).calls ≠ [] := by
  simp [life, stack, List.filter_cons_of_pos own]

/-- The life of a binding that has been made has its phase, wish, attempt and occupant. -/
theorem life_of_found
    {page : Page}
    {binding : Binding}
    (found : page.binding? key = some binding) :
    (page.life key).present = true ∧
      (page.life key).phase = binding.phase ∧
      (page.life key).wanted = binding.wanted ∧
      (page.life key).attempt = binding.attempt ∧
      (page.life key).occupant = binding.occupant := by
  simp [life, found]

end Page

end Hydration
