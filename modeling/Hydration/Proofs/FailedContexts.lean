import Hydration.Proofs.CurrentMonitors
import Hydration.Proofs.Siblings.Rejecting
import Hydration.Proofs.Watching.Refusing

/-!
# A context that cannot be watched leaves no trace

The conditions of a context are looked at in turn, and monitors are made and
entered everywhere before it is known whether the whole context can be watched.  If
it cannot, the monitors that were made are kept by nobody, and whoever looks finds
everything as it was.  A binding with such a context stays unmounted and reports the
fault once.
-/

namespace Hydration

namespace Page

variable {page : Page} {key : BindingId} {binding : Binding} {outer : List Call}

section Starting

variable {context : Context} {scene : Scene} {fault : ContextFault}
variable
  (stack : page.stack = .request (.bind .start key) :: outer)
  (found : page.binding? key = some binding)
  (fresh : binding.IsFresh)
  (read : binding.context = .ok context)
  (refused :
    page.scene.watch page.pinned binding.hooks.factories binding.element context =
      (scene, .error fault))

include stack found fresh read refused

/-- When a fresh binding is started whose context is refused, there is only a fault to report. -/
theorem step_of_refused_start :
    page.step =
      ({ page with stack := outer, scene } : Page).report key (.configuration fault) := by
  let popped : Page := { page with stack := outer }
  have pinned : popped.pinned = page.pinned := by
    rw [Page.pinned, Page.pinned, stack]
    rfl
  have again :
      popped.scene.watch popped.pinned binding.hooks.factories binding.element context =
        (scene, .error fault) := by
    rw [pinned]
    exact refused
  rw [step_of_stack stack]
  exact start_of_fault found fresh read again

/-- The fault is reported to the hook and to the callback, once each. -/
theorem leads_of_refused_start
    (ignores : page.Ignores binding .mountError)
    (ignoresToo : page.Ignores binding .onMountError) :
    ∃ heard heardToo,
      page.Leads ((({ page with stack := outer, scene } : Page).record
        (.noticed key .mountError .unmounted false (some (.configuration fault)) heard)).record
        (.noticed key .onMountError .unmounted false (some (.configuration fault)) heardToo)) := by
  let after : Page := { page with stack := outer, scene }
  have still : after.Ignores binding .mountError := ignores
  have stillToo : after.Ignores binding .onMountError := ignoresToo
  have there : after.binding? key = some binding := found
  obtain ⟨heard, heardToo, leads⟩ :=
    leads_of_report still stillToo there (.configuration fault)
  rw [fresh.phase, fresh.wanted,
    ← step_of_refused_start stack found fresh read refused] at leads
  exact ⟨heard, heardToo, .step leads⟩

end Starting

/--
A context has conditions without a fault, one with a fault and others behind it, and
it is to be watched at any moment whatsoever.  The fault of that condition is the
answer, no factory is called for the conditions behind it, and the scene looks to
everybody as it did: as many monitors follow the viewport, every monitor has its
value and its listener, every toggle has its value and its listener, and the same
elements are visible.  A fresh binding with that context stays as it is when it is
started, so it is unmounted, does not want to be mounted and watches nothing, and has
nothing to do but to report the fault, once to the hook and once to the callback; if
these do nothing the reports are all that has happened.
-/
theorem failed_context_leaves_no_trace
    {start : Page}
    (opens : start.Opens)
    (deeds : List Deed)
    {factories : Factories}
    (element : ElementId)
    {context : Context}
    {earlier later : List Condition}
    {condition : Condition}
    {fault : ContextFault}
    (split : context.conditions = earlier ++ condition :: later)
    (readable : ∀ other ∈ earlier, other.fault? factories = none)
    (amiss : condition.fault? factories = some fault) :
    let page := start.afterDeeds deeds
    let watched := page.scene.watch page.pinned factories element context
    let noted :=
      Scene.makeAllNoting page.pinned factories element [] page.scene context.conditions
    watched.2 = .error fault ∧
      noted.1 = earlier ++ [condition].filter (factories.contains ·.monitor) ∧
      noted.2 =
        Scene.makeAll page.pinned factories element [] page.scene context.conditions ∧
      page.scene.Resembles watched.1 page.pinned ∧
      ∀ key binding outer, page.stack = .request (.bind .start key) :: outer →
        page.binding? key = some binding → binding.IsFresh →
        binding.context = .ok context → binding.hooks.factories = factories →
        binding.element = element →
        (page.step.binding? key = some binding ∧ page.step.scene = watched.1 ∧
          page.step.history = page.history ∧
          page.step.stack =
            .notice key .mountError (some (.configuration fault)) ::
              .notice key .onMountError (some (.configuration fault)) :: outer) ∧
        (page.Ignores binding .mountError → page.Ignores binding .onMountError →
          ∃ heard heardToo after, page.Leads after ∧
            after.binding? key = some binding ∧ after.scene = watched.1 ∧
            after.stack = outer ∧
            after.history =
              .noticed key .onMountError .unmounted false (some (.configuration fault)) heardToo ::
                .noticed key .mountError .unmounted false (some (.configuration fault)) heard ::
                  page.history) := by
  intro page watched noted
  have vital := vital_afterDeeds opens.vital deeds
  have fails : watched.2 = .error fault :=
    congrArg Prod.snd (Scene.watch_of_fault split readable amiss)
  have result : watched = (watched.1, .error fault) := Prod.ext rfl fails
  have notes : noted.1 = earlier ++ [condition].filter (factories.contains ·.monitor) := by
    simp only [noted, split, Scene.makeAllNoting_of_fault readable amiss]
  refine ⟨fails, notes, Scene.makeAllNoting_snd _, vital.resembles_of_refused result, ?_⟩
  intro key binding outer stack found fresh read sameFactories sameElement
  subst sameFactories sameElement
  refine ⟨?_, fun ignores ignoresToo => ?_⟩
  · rw [step_of_refused_start stack found fresh read result]
    exact ⟨found, rfl, rfl, rfl⟩
  · obtain ⟨heard, heardToo, leads⟩ :=
      leads_of_refused_start stack found fresh read result ignores ignoresToo
    exact ⟨heard, heardToo, _, leads, found, rfl, rfl, rfl⟩

/-- A context of which the second condition asks a kind of monitor that nobody knows. -/
def halfKnown : Context :=
  ⟨[⟨"visible", "true"⟩, ⟨"shelf", "full"⟩, ⟨"media", "print"⟩]⟩

/-- A page with one binding, which has such a context. -/
def refusing : Page :=
  { Page.empty .standard .standard with
    bindings :=
      ⟨[.fresh "lone" "lone" 0 (.ok halfKnown)
        { Hooks.standard .standard with factories := Factories.empty.install }]⟩ }

/-- A monitor of the element was made by then, and the binding reports the fault twice. -/
theorem failed_context_of_unknown_kind :
    let fault := ContextFault.unknownMonitor "shelf"
    let page := refusing.afterDeeds [.ask (.bind .start 0)]
    refusing.Opens ∧
      page.step.scene.monitors.size = page.scene.monitors.size + 1 ∧
      page.step.scene.mediaMonitors page.pinned = page.scene.mediaMonitors page.pinned ∧
      ∃ heard heardToo after, page.Leads after ∧ after.phase 0 = .unmounted ∧
        after.wants 0 = false ∧ after.stack = [] ∧
        after.history =
          [.noticed 0 .onMountError .unmounted false (some (.configuration fault)) heardToo,
            .noticed 0 .mountError .unmounted false (some (.configuration fault)) heard] := by
  intro fault page
  have opens : refusing.Opens := ⟨⟨Tree.empty, .standard, rfl⟩, rfl, rfl⟩
  have split : halfKnown.conditions =
      [⟨"visible", "true"⟩] ++ ⟨"shelf", "full"⟩ :: [⟨"media", "print"⟩] := rfl
  have readable : ∀ other ∈ [⟨"visible", "true"⟩],
      Condition.fault? other Factories.empty.install = none := by decide +kernel
  have amiss : Condition.fault? ⟨"shelf", "full"⟩ Factories.empty.install = some fault := by
    decide +kernel
  obtain ⟨_, _, _, same, starts⟩ :=
    failed_context_leaves_no_trace opens [.ask (.bind .start 0)] 0 split readable amiss
  obtain ⟨⟨_, scene, _⟩, reports⟩ :=
    starts 0 _ [] rfl rfl (Binding.isFresh_fresh _ _ _ _ _) rfl rfl rfl
  obtain ⟨heard, heardToo, after, leads, found, _, stack, history⟩ :=
    reports (fun _ scripted => by cases scripted) fun _ scripted => by cases scripted
  rw [← scene] at same
  exact ⟨opens, by decide +kernel, same.media, heard, heardToo, after, leads,
    phase_of_found found, wants_of_found found, stack, history⟩

end Page

end Hydration
