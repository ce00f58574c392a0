import Hydration.Proofs.Pairs.Remaining
import Hydration.Proofs.Passive.Settling

/-!
# The pairs that hydration knows

Among the bindings that hydration has made and not forgotten no two tie one label
to one element, whether they have ended or not.  A binding is made only for a
pair that is not among them, and what they tie together never changes.
-/

namespace Hydration

namespace Page

/-- The element and the label that a binding ties together. -/
def pair? (page : Page) (key : BindingId) : Option (ElementId × String) :=
  (page.bond? key).map fun bond => (bond.element, bond.label)

/-- Hydration knows bindings that have been made, and no two of one pair. -/
structure Listed (page : Page) : Prop where
  made : ∀ key ∈ page.modules, key < page.bindings.size
  nodup : (page.modules.map page.pair?).Nodup

/-- A binding is made, and hydration knows it from now on. -/
def enlist (page : Page) (binding : Binding) : Page :=
  { page.addBinding binding with modules := page.modules ++ [page.bindings.size] }

variable {page after : Page} {hooks : Hooks} {element : ElementId} {rest : List ElementId}
  {label : String} {outer : List Call}

/-- Idle scripts neither hydrate nor end all bindings. -/
theorem HasIdleScripts.isTame (idle : page.HasIdleScripts) : page.IsTame := by
  intro script member action inside
  rw [idle script member] at inside
  cases inside

theorem pair?_of_bond? {key : BindingId} (bond : after.bond? key = page.bond? key) :
    after.pair? key = page.pair? key := by
  rw [pair?, pair?, bond]

theorem isBound_iff :
    page.isBound element label ↔ some (element, label) ∈ page.modules.map page.pair? := by
  rw [isBound, List.any_eq_true, List.mem_map]
  refine exists_congr fun key => and_congr_right fun _ => ?_
  cases found : page.binding? key with
  | none => simp [pair?, bond?, found]
  | some binding => simp [pair?, bond?, found, Binding.bond]

theorem binding?_enlist (page : Page) (binding : Binding) (key : BindingId) :
    (page.enlist binding).binding? key =
      if key = page.bindings.size then some binding else page.binding? key :=
  page.binding?_addBinding binding key

theorem pair?_enlist (page : Page) (binding : Binding) (key : BindingId) :
    (page.enlist binding).pair? key =
      if key = page.bindings.size then some (binding.element, binding.label)
      else page.pair? key := by
  rw [pair?, bond?, binding?_enlist]
  split <;> rfl

theorem hydrateNext_of_skipped (skipped : page.labelOf? hooks element = none) :
    page.hydrateNext hooks (element :: rest) = page.push [.hydrate hooks rest] := by
  simp only [hydrateNext, skipped]

theorem hydrateNext_of_bound (bound : page.labelOf? hooks element = some label) :
    page.hydrateNext hooks (element :: rest) =
      ((page.push [.hydrate hooks rest]).enlist (page.bindingOf hooks element label)).push
        [.request (.bind .start page.bindings.size)] := by
  simp only [hydrateNext, bound]
  rfl

/-- When its turn comes, an element that is not to be bound is passed over. -/
theorem step_of_skipped
    (stack : page.stack = .hydrate hooks (element :: rest) :: outer)
    (skipped : page.labelOf? hooks element = none) :
    page.step = { page with stack := .hydrate hooks rest :: outer } := by
  have popped : ({ page with stack := outer } : Page).labelOf? hooks element = none := skipped
  rw [step_of_stack stack]
  exact hydrateNext_of_skipped popped

/-- When its turn comes, an element that is to be bound is bound, and its binding is started. -/
theorem step_of_bound
    (stack : page.stack = .hydrate hooks (element :: rest) :: outer)
    (bound : page.labelOf? hooks element = some label) :
    page.step =
      (({ page with stack := .hydrate hooks rest :: outer } : Page).enlist
        (page.bindingOf hooks element label)).push
          [.request (.bind .start page.bindings.size)] := by
  have popped : ({ page with stack := outer } : Page).labelOf? hooks element = some label := bound
  rw [step_of_stack stack]
  exact hydrateNext_of_bound popped

namespace Listed

/-- Bindings may be forgotten and others made as long as none changes its pair. -/
theorem keep
    (listed : page.Listed)
    (modules : after.modules.Sublist page.modules)
    (grown : page.bindings.size ≤ after.bindings.size)
    (pairs : ∀ key < page.bindings.size, after.pair? key = page.pair? key) :
    after.Listed := by
  have known (key : BindingId) (member : key ∈ after.modules) : key < page.bindings.size :=
    listed.made key (modules.subset member)
  refine ⟨fun key member => Nat.lt_of_lt_of_le (known key member) grown, ?_⟩
  rw [List.map_congr_left fun key member => pairs key (known key member)]
  exact listed.nodup.sublist (modules.map page.pair?)

theorem of_remains (listed : page.Listed) (remains : page.Remains after) : after.Listed :=
  listed.keep (by rw [remains.modules]) (Nat.le_of_eq remains.size.symm) fun key _ =>
    pair?_of_bond? (remains.bond key)

/-- The pairs that hydration knows after a binding has been made. -/
theorem map_pair?_enlist (listed : page.Listed) (binding : Binding) :
    (page.enlist binding).modules.map (page.enlist binding).pair? =
      page.modules.map page.pair? ++ [some (binding.element, binding.label)] := by
  have old : page.modules.map (page.enlist binding).pair? = page.modules.map page.pair? := by
    refine List.map_congr_left fun key member => ?_
    rw [pair?_enlist, if_neg (Nat.ne_of_lt (listed.made key member))]
  rw [enlist, List.map_append, List.map_singleton, ← enlist, old, pair?_enlist, if_pos rfl]

/-- A binding may be made for a pair that is not bound. -/
theorem enlist
    (listed : page.Listed)
    (binding : Binding)
    (unbound : page.isBound binding.element binding.label = false) :
    (page.enlist binding).Listed := by
  constructor
  · intro key member
    have size : (page.enlist binding).bindings.size = page.bindings.size + 1 :=
      Table.size_push _ _
    rw [size]
    rcases List.mem_append.mp member with old | new
    · exact Nat.lt_succ_of_lt (listed.made key old)
    · rw [List.mem_singleton.mp new]
      exact Nat.lt_succ_self _
  · rw [listed.map_pair?_enlist, List.nodup_append_comm]
    refine List.nodup_cons.mpr ⟨fun member => ?_, listed.nodup⟩
    rw [isBound_iff.mpr member] at unbound
    cases unbound

theorem hydrateNext
    (listed : page.Listed)
    (hooks : Hooks)
    (elements : List ElementId) :
    (page.hydrateNext hooks elements).Listed := by
  cases elements with
  | nil => exact listed
  | cons element rest =>
      cases found : page.labelOf? hooks element with
      | none =>
          rw [hydrateNext_of_skipped found]
          exact ⟨listed.made, listed.nodup⟩
      | some label =>
          have waiting : (page.push [.hydrate hooks rest]).Listed := ⟨listed.made, listed.nodup⟩
          have enlisted := waiting.enlist (page.bindingOf hooks element label)
            (labelOf?_eq_some_iff.mp found).2.2
          rw [hydrateNext_of_bound found]
          exact ⟨enlisted.made, enlisted.nodup⟩

theorem carryOn (listed : page.Listed) (call : Call) : (page.carryOn call).Listed := by
  by_cases tame : call.isTame
  · exact listed.of_remains (.carryOn page tame)
  · cases call with
    | hydrate hooks elements => exact listed.hydrateNext hooks elements
    | destroyEach bindings =>
        cases bindings with
        | nil => exact listed
        | cons => exact ⟨listed.made, listed.nodup⟩
    | request request =>
        cases request with
        | hydrate root => exact listed.keep List.filter_sublist (Nat.le_refl _) fun _ _ => rfl
        | destroyAll => exact listed.keep (List.nil_sublist _) (Nat.le_refl _) fun _ _ => rfl
        | _ => exact (tame rfl).elim
    | _ => exact (tame rfl).elim

theorem step (listed : page.Listed) : page.step.Listed := by
  cases stack : page.stack with
  | nil => rwa [step_of_nil stack]
  | cons call outer =>
      have popped : ({ page with stack := outer } : Page).Listed := ⟨listed.made, listed.nodup⟩
      rw [step_of_stack stack]
      exact popped.carryOn call

theorem move (listed : page.Listed) (move : Move) : (page.move move).Listed := by
  cases move with
  | callback key notice script =>
      exact listed.of_remains (.of_proceeds (.setCallback page key notice script))
  | bind label name element context hooks =>
      refine listed.keep (List.Sublist.refl _) ?_ fun key old => ?_
      · simp [Page.move, addBinding]
      · have same : (page.move (.bind label name element context hooks)).binding? key =
            page.binding? key := by
          rw [Page.move, binding?_addBinding, if_neg (Nat.ne_of_lt old)]
        rw [pair?, pair?, bond?, bond?, same]
  | ask | script | constructor | plugin | catalog | registry | scene =>
      exact ⟨listed.made, listed.nodup⟩

end Listed

theorem Leads.listed (leads : page.Leads after) (listed : page.Listed) : after.Listed := by
  induction leads with
  | here => exact listed
  | step _ inductionHypothesis => exact inductionHypothesis listed.step

end Page

/-- Whatever is done, hydration knows no two bindings of one pair. -/
theorem Run.listed
    {free : Move → Prop}
    {start page : Page}
    {passed : List Page}
    (run : Run free start passed page)
    (listed : start.Listed) :
    page.Listed := by
  induction run with
  | begin => exact listed
  | move move _ _ _ inductionHypothesis => exact inductionHypothesis.move move
  | step _ inductionHypothesis => exact inductionHypothesis.step

end Hydration
