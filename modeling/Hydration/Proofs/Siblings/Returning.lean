import Hydration.Proofs.Pairs.Passing

/-!
# What a pass returns while nothing is planted

If all scripts are idle then no element changes during a pass, so what the pass
reads from each element is what was written on it from the start.  The bindings
that it returns are those of the elements that carry a name, in order.
-/

namespace Hydration

/-- Whether a call is a part of a pass or of what a pass starts. -/
def Call.isInner : Call → Bool
  | request (.bind _ _) => true
  | request _ => false
  | _ => true

theorem Call.isInner_of_isOrdinary {call : Call} (ordinary : call.isOrdinary) : call.isInner := by
  cases call with
  | request request => cases request <;> first | rfl | cases ordinary
  | _ => rfl

/-- An element with the name that it carries. -/
def Hooks.pair? (hooks : Hooks) (tree : Tree) (element : ElementId) :
    Option (ElementId × String) :=
  ((hooks.readName.read tree element).map Text.trimmed).bind fun label =>
    if label = "" then none else some (element, label)

/-- The elements of a list that carry a name, with their names. -/
def Hooks.pairs (hooks : Hooks) (tree : Tree) (elements : List ElementId) :
    List (ElementId × String) :=
  elements.filterMap (hooks.pair? tree)

/-- Nothing is erased from a list without duplicates. -/
theorem eraseDups_of_nodup {α : Type} [BEq α] [LawfulBEq α] {list : List α}
    (distinct : list.Nodup) :
    list.eraseDups = list := by
  induction list with
  | nil => rfl
  | cons first rest inductionHypothesis =>
      obtain ⟨fresh, others⟩ := List.nodup_cons.mp distinct
      have kept : (rest.filter fun other => !other == first) = rest := by
        refine List.filter_eq_self.mpr fun other member => ?_
        have different : other ≠ first := by
          rintro rfl
          exact fresh member
        simpa using different
      rw [List.eraseDups_cons, kept, inductionHypothesis others]

/-- What occurs in a list is erased from what follows it. -/
theorem eraseDups_append_cons {α : Type} [BEq α] [LawfulBEq α] {known others : List α} {item : α}
    (member : item ∈ known) :
    (known ++ item :: others).eraseDups = (known ++ others).eraseDups := by
  have absorbed : (item :: others).removeAll known = others.removeAll known := by
    simp [List.removeAll, member]
  rw [List.eraseDups_append, List.eraseDups_append, absorbed]

namespace Page

/-- The elements and the scripts are as before, and what came under way is a part of a pass. -/
structure LeavesTree (before after : Page) : Prop where
  tree : after.scene.tree = before.scene.tree
  scripts : after.scripts = before.scripts
  stack : ∃ added, after.stack = added ++ before.stack ∧ ∀ call ∈ added, call.isInner

namespace LeavesTree

variable {page : Page} {key : BindingId}

theorem of_proceeds {before after : Page} (proceeds : before.Proceeds after) :
    before.LeavesTree after := by
  obtain ⟨added, stack, ordinary⟩ := proceeds.stack
  exact ⟨proceeds.tree, proceeds.scripts, added, stack, fun call member =>
    Call.isInner_of_isOrdinary (ordinary call member)⟩

theorem launch (page : Page) (key : BindingId) (attempt : Nat) :
    page.LeavesTree (page.launch key attempt) := by
  obtain ⟨_, _, added, _, same, brings⟩ := launch_eq page key attempt
  rw [same]
  refine ⟨rfl, rfl, added, rfl, ?_⟩
  rcases brings with rfl | ⟨_, rfl⟩ <;> simp [Call.isInner]

theorem driveNext (page : Page) (queue : QueueName) : page.LeavesTree (page.driveNext queue) := by
  obtain ⟨_, _, added, same, brings⟩ := driveNext_eq page queue
  rw [same]
  refine ⟨rfl, rfl, added, rfl, ?_⟩
  rcases brings with rfl | rfl | ⟨_, _, _, rfl⟩ <;> simp [Call.isInner]

theorem hydrateNext (page : Page) (hooks : Hooks) (elements : List ElementId) :
    page.LeavesTree (page.hydrateNext hooks elements) := by
  cases elements with
  | nil => exact ⟨rfl, rfl, [], rfl, by simp⟩
  | cons element rest =>
      cases found : page.labelOf? hooks element with
      | none =>
          rw [hydrateNext_of_skipped found]
          exact ⟨rfl, rfl, [.hydrate hooks rest], rfl, by simp [Call.isInner]⟩
      | some label =>
          rw [hydrateNext_of_bound found]
          exact ⟨rfl, rfl, [.request (.bind .start page.bindings.size), .hydrate hooks rest], rfl,
            by simp [Call.isInner]⟩

/-- A part of a pass leaves the elements alone. -/
theorem carryOn
    {call : Call}
    (idle : page.HasIdleScripts)
    (inner : call.isInner) :
    page.LeavesTree (page.carryOn call) := by
  have owned {key : BindingId} (own : call.isOf key)
      (unlaunched : ∀ attempt, call ≠ .launch key attempt) :
      page.LeavesTree (page.carryOn call) :=
    .of_proceeds (.carryOn own unlaunched)
  cases call with
  | request request =>
      cases request with
      | bind verb key => exact .of_proceeds (.obey page verb key)
      | _ => cases inner
  | script script position subject =>
      rw [Page.carryOn, runScript_of_idle idle]
      exact ⟨rfl, rfl, [], rfl, by simp⟩
  | deliver monitors => exact .of_proceeds (.deliver page monitors)
  | pin => exact ⟨rfl, rfl, [], rfl, by simp⟩
  | launch key attempt => exact .launch page key attempt
  | hydrate hooks elements => exact .hydrateNext page hooks elements
  | destroyEach bindings =>
      cases bindings with
      | nil => exact ⟨rfl, rfl, [], rfl, by simp⟩
      | cons first rest =>
          exact ⟨rfl, rfl, [.request (.bind .destroy first), .destroyEach rest], rfl,
            by simp [Call.isInner]⟩
  | drive queue => exact .driveNext page queue
  | notice other | arrive other | construct other | settle other | teardown other
  | dismantle other | vacated other | remount other | retire other | bury other =>
      exact owned (decide_eq_true (Eq.refl other)) (by simp)

end LeavesTree

variable {page after other : Page} {hooks : Hooks} {element : ElementId} {elements : List ElementId}
  {label : String}

/-- As long as only a pass is under way no element and no script changes. -/
theorem Leads.spared
    (leads : page.Leads after)
    (idle : page.HasIdleScripts)
    (inner : ∀ call ∈ page.stack, call.isInner) :
    after.scene.tree = page.scene.tree ∧ after.scripts = page.scripts := by
  induction leads with
  | here => exact ⟨rfl, rfl⟩
  | @step page after _ inductionHypothesis =>
      cases stack : page.stack with
      | nil =>
          rw [step_of_nil stack] at inductionHypothesis
          exact inductionHypothesis idle inner
      | cons call outer =>
          rw [stack] at inner
          obtain ⟨first, others⟩ := List.forall_mem_cons.mp inner
          have still : ({ page with stack := outer } : Page).HasIdleScripts := idle
          have leavesTree := LeavesTree.carryOn still first
          rw [← step_of_stack stack] at leavesTree
          obtain ⟨tree, scripts, added, pushed, innerAdded⟩ := leavesTree
          have idleNext : page.step.HasIdleScripts := by
            rw [HasIdleScripts, scripts]
            exact idle
          have innerNext : ∀ call ∈ page.step.stack, call.isInner := by
            rw [pushed]
            exact List.forall_mem_append.mpr ⟨innerAdded, others⟩
          obtain ⟨treeLater, scriptsLater⟩ := inductionHypothesis idleNext innerNext
          exact ⟨treeLater.trans tree, scriptsLater.trans scripts⟩

/-- A page comes to rest in one way only. -/
theorem Leads.unique
    (leads : page.Leads after)
    (leadsToo : page.Leads other)
    (rest : after.isAtRest)
    (restToo : other.isAtRest) :
    after = other := by
  obtain ⟨first, rfl⟩ := leads.exists_run
  obtain ⟨second, rfl⟩ := leadsToo.exists_run
  exact run_eq_run rest restToo

/-- An element that is not to be bound carries no name, or is bound by it. -/
theorem mem_of_skipped
    {known : List (ElementId × String)}
    {pair : ElementId × String}
    (listed : page.modules.map page.pair? = known.map some)
    (skipped : page.labelOf? hooks element = none)
    (named : hooks.pair? page.scene.tree element = some pair) :
    pair ∈ known := by
  obtain ⟨label, reads, chosen⟩ := Option.bind_eq_some_iff.mp named
  split at chosen
  · cases chosen
  · next blank =>
      cases chosen
      have bound : page.isBound element label := by
        by_contra unbound
        have found := labelOf?_eq_some_iff.mpr
          ⟨reads, blank, Bool.eq_false_iff.mpr unbound⟩
        cases skipped.symm.trans found
      simpa [isBound_iff, listed] using bound

theorem pair?_of_named (named : page.labelOf? hooks element = some label) :
    hooks.pair? page.scene.tree element = some (element, label) := by
  obtain ⟨reads, blank, _⟩ := labelOf?_eq_some_iff.mp named
  simp [Hooks.pair?, reads, blank]

/--
A pass over a page whose scripts are idle binds the pairs of the elements that
were not bound before, in order.
-/
theorem gathers
    {known : List (ElementId × String)}
    (idle : page.HasIdleScripts)
    (listed : page.Listed)
    (bound : page.modules.map page.pair? = known.map some)
    (stack : page.stack = [.hydrate hooks elements]) :
    ∃ after, page.Leads after ∧ after.isAtRest ∧
      after.modules.map after.pair? =
        (known ++ hooks.pairs page.scene.tree elements).eraseDups.map some := by
  -- A pair that is bound moves from those to come to the known ones; one that is skipped is
  -- either blank or among the known ones, and then it is erased anyway.
  induction elements generalizing page known with
  | nil =>
      have next : page.step = { page with stack := [] } := step_of_stack stack
      have distinct : known.Nodup := by
        refine List.Nodup.of_map some ?_
        rw [← bound]
        exact listed.nodup
      refine ⟨{ page with stack := [] }, .step (next ▸ .here _), rfl, ?_⟩
      rw [Hooks.pairs, List.filterMap_nil, List.append_nil, eraseDups_of_nodup distinct]
      exact bound
  | cons element rest inductionHypothesis =>
      cases found : page.labelOf? hooks element with
      | none =>
          have next := step_of_skipped stack found
          have waiting : ({ page with stack := [.hydrate hooks rest] } : Page).HasIdleScripts :=
            idle
          obtain ⟨after, leads, done, made⟩ :=
            inductionHypothesis waiting ⟨listed.made, listed.nodup⟩ bound rfl
          refine ⟨after, .step (next ▸ leads), done, made.trans (congrArg (List.map some) ?_)⟩
          cases named : hooks.pair? page.scene.tree element with
          | none => simp only [Hooks.pairs, List.filterMap_cons_none named]
          | some pair =>
              simp only [Hooks.pairs, List.filterMap_cons_some named]
              exact (eraseDups_append_cons (mem_of_skipped bound found named)).symm
      | some label =>
          obtain ⟨middle, leads, waits, remains⟩ := leads_of_bound idle.isTame stack found
          obtain ⟨tree, scripts⟩ := leads.spared idle (by simp [stack, Call.isInner])
          have idleMiddle : middle.HasIdleScripts := by
            rw [HasIdleScripts, scripts]
            exact idle
          have boundNext : middle.modules.map middle.pair? =
              (known ++ [(element, label)]).map some := by
            rw [map_pair?_of_bound listed remains, bound, List.map_append, List.map_singleton]
          obtain ⟨after, later, done, made⟩ :=
            inductionHypothesis idleMiddle (leads.listed listed) boundNext waits
          refine ⟨after, leads.trans later, done, made.trans (congrArg (List.map some) ?_)⟩
          rw [tree, Hooks.pairs, Hooks.pairs, List.filterMap_cons, pair?_of_named found,
            List.append_assoc, List.singleton_append]

/-- The first pass over a page whose scripts are idle binds all pairs once, in order. -/
theorem returns_pairs
    (idle : page.HasIdleScripts)
    (begun : page.stack = [])
    (unbound : page.modules = [])
    (leads : (page.push [.hydrate hooks elements]).Leads after)
    (rest : after.isAtRest) :
    after.modules.map after.pair? =
      (hooks.pairs page.scene.tree elements).eraseDups.map some := by
  have listed : (page.push [.hydrate hooks elements]).Listed := by
    constructor <;> simp [push, unbound]
  have stack : (page.push [.hydrate hooks elements]).stack = [.hydrate hooks elements] := by
    rw [push, begun]
    rfl
  have bound : (page.push [.hydrate hooks elements]).modules.map
      (page.push [.hydrate hooks elements]).pair? = [].map some := by
    simp [push, unbound]
  have still : (page.push [.hydrate hooks elements]).HasIdleScripts := idle
  obtain ⟨other, leadsToo, restToo, made⟩ := gathers still listed bound stack
  obtain rfl := leads.unique leadsToo rest restToo
  exact made

end Page

end Hydration
