import Hydration.Proofs.Sharing.Switching

/-!
# Bindings that share a toggle

All bindings of a page may have one and the same toggle for their context.  They
are all hydrated by its value, but a toggle has one listener: each binding takes
it from the one that was made before.  So only the binding that was made last
follows the toggle afterwards, and all others stay wanted as they were when the
page was hydrated.
-/

namespace Hydration

/-- Whether the host sets a toggle or lets imports go on. -/
def Move.Switches (name : String) : Move → Prop
  | ask request => request.Switches name
  | _ => False

/-- A page with two elements that are to be mounted while one toggle holds. -/
def Page.sharing : Page :=
  let hooks :=
    { Hooks.standard .standard with
      selection := .fixed [0, 1]
      readName := .constant (some "lone")
      readContext := .constant (some "@flag on")
      factories := Factories.empty.register "flag" .toggle }
  { Page.lone hooks ⟨"Lone", none, true, none, 0, 0, 0⟩ [] with
    hooks
    bindings := Table.empty }

theorem Page.hasIdleScripts_sharing : Page.sharing.HasIdleScripts := by
  intro script member
  rw [List.mem_singleton.mp member]

theorem Page.readsToggle_sharing (element : ElementId) :
    Page.sharing.hooks.ReadsToggle Page.sharing.scene.tree "on" element := by
  have parsed :
      Context.parseWith "@flag on" Page.sharing.hooks.defaultMonitor =
        .ok ⟨[⟨"flag", "on"⟩]⟩ := by
    decide +kernel
  exact ⟨⟨"flag", "on"⟩, parsed, rfl⟩

namespace Run

variable {start hydrated page : Page} {before passed : List Page}
variable {name : String} {value : Bool} {last : BindingId} {root : ElementId}

/-- All along a hydration bindings are made for the toggle or brought to its value. -/
theorem isHydrating
    (rest : start.isAtRest)
    (unbound : start.bindings = Table.empty)
    (idle : start.HasIdleScripts)
    (knows : start.scene.KnowsToggle name)
    (reads :
      ∀ element ∈ start.hooks.selection.elements start.scene.tree root,
        start.hooks.ReadsToggle start.scene.tree name element)
    (run : Run (fun _ => False) (start.move (.ask (.hydrate root))) passed page) :
    page.IsHydrating name (start.scene.toggleValue name) := by
  induction run with
  | begin =>
      have absent (key : BindingId) : start.binding? key = none := by
        rw [Page.binding?, unbound]
        rfl
      refine .asked ⟨⟨idle, by simp [absent], by simp [absent]⟩, rfl, knows, ?_⟩ ?_ reads
      · simp [Page.stack_of_rest rest]
      · intro key isLast
        simp [unbound] at isLast
  | move _ _ _ never => exact never.elim
  | step _ inductionHypothesis => exact inductionHypothesis.step

/-- All along a run that switches a toggle the last binding heeds it, or it is to be told. -/
theorem isSwitching
    (begins : start.IsSwitching name value last)
    (run : Run (Move.Switches name) start passed page) :
    page.IsSwitching name value last := by
  induction run with
  | begin => exact begins
  | step _ inductionHypothesis => exact inductionHypothesis.step
  | @move passed page move _ rest switches inductionHypothesis =>
      obtain ⟨switching, heeds⟩ := inductionHypothesis.of_rest rest
      cases move with
      | ask request =>
          exact .settled
            { switching with calls := List.forall_mem_cons.mpr ⟨switches, switching.calls⟩ }
            (.inl heeds)
      | _ => exact switches.elim

/--
A page whose elements all have one toggle for their context is hydrated, and then
the toggle is set again and again and imports go on.  Hydration leaves every
binding wanted as the toggle says.  At rest afterwards no binding has ended; the
one that was made last is wanted as the toggle says by then, and each other one
as hydration left it.
-/
theorem last_heeds_shared_toggle
    {key : BindingId}
    {made : Binding}
    (startRest : start.isAtRest)
    (unbound : start.bindings = Table.empty)
    (idle : start.HasIdleScripts)
    (knows : start.scene.KnowsToggle name)
    (reads :
      ∀ element ∈ start.hooks.selection.elements start.scene.tree root,
        start.hooks.ReadsToggle start.scene.tree name element)
    (hydration : Run (fun _ => False) (start.move (.ask (.hydrate root))) before hydrated)
    (hydratedRest : hydrated.isAtRest)
    (run : Run (Move.Switches name) hydrated passed page)
    (rest : page.isAtRest)
    (found : hydrated.binding? key = some made) :
    made.wanted = start.scene.toggleValue name ∧
      ∃ binding, page.binding? key = some binding ∧ binding.phase ≠ .destroyed ∧
        binding.wanted =
          if key + 1 = page.bindings.size then page.scene.toggleValue name else made.wanted := by
  obtain ⟨hydrating, tells⟩ :=
    (hydration.isHydrating startRest unbound idle knows reads).of_rest hydratedRest
  have wanted := hydrating.wishes key made found id
  have below : key < hydrated.bindings.size := by
    by_contra beyond
    cases ((Table.get?_eq_none_iff _ _).mpr (Nat.le_of_not_lt beyond)).symm.trans found
  obtain ⟨last, size⟩ := Nat.exists_eq_succ_of_ne_zero (Nat.ne_zero_of_lt below)
  obtain ⟨switching, heeds⟩ :=
    (run.isSwitching (hydrating.switching tells size hydratedRest)).of_rest rest
  refine ⟨wanted, ?_⟩
  cases there : page.binding? key with
  | none =>
      have beyond := (Table.get?_eq_none_iff _ _).mp there
      rw [switching.size, ← Nat.succ_eq_add_one, ← size] at beyond
      exact absurd below (Nat.not_lt_of_le beyond)
  | some binding =>
      refine ⟨binding, rfl, switching.living key binding there, ?_⟩
      rw [switching.size]
      split
      · next isLast =>
          cases Nat.succ.inj isLast
          exact heeds binding there
      · next isEarlier =>
          rw [wanted]
          exact switching.wishes key binding there fun same => isEarlier (congrArg Nat.succ same)

/-- Of two bindings that share a toggle only the second is wanted when the toggle is set. -/
theorem last_heeds_shared_toggle_of_two :
    let hydrated := Page.run 60 (Page.sharing.move (.ask (.hydrate 0)))
    let page := Page.run 60 (hydrated.move (.ask (.toggle "on" true)))
    page.isAtRest ∧ page.wants 0 = false ∧ page.wants 1 = page.scene.toggleValue "on" := by
  intro hydrated page
  have knows : Page.sharing.scene.KnowsToggle "on" := by
    intro monitor named
    cases named
  have hydratedRest : hydrated.isAtRest := by decide +kernel
  have rest : page.isAtRest := by decide +kernel
  have hydration : Run (fun _ => False) (Page.sharing.move (.ask (.hydrate 0))) _ hydrated :=
    Run.begin.onward 60
  have sets : Move.Switches "on" (.ask (.toggle "on" true)) := rfl
  have run : Run (Move.Switches "on") hydrated _ page :=
    (Run.begin.move (.ask (.toggle "on" true)) hydratedRest sets).onward 60
  have made : (hydrated.binding? 0).isSome ∧ (hydrated.binding? 1).isSome := by decide +kernel
  have size : page.bindings.size = 2 := by decide +kernel
  obtain ⟨first, isFirst⟩ := Option.isSome_iff_exists.mp made.1
  obtain ⟨second, isSecond⟩ := Option.isSome_iff_exists.mp made.2
  obtain ⟨before, earlier, there, _, stays⟩ :=
    last_heeds_shared_toggle rfl rfl Page.hasIdleScripts_sharing knows
      (fun element _ => Page.readsToggle_sharing element) hydration hydratedRest run rest isFirst
  obtain ⟨_, later, here, _, heeds⟩ :=
    last_heeds_shared_toggle rfl rfl Page.hasIdleScripts_sharing knows
      (fun element _ => Page.readsToggle_sharing element) hydration hydratedRest run rest isSecond
  rw [size] at stays heeds
  refine ⟨rest, ?_, (Page.wants_of_found here).trans heeds⟩
  exact (Page.wants_of_found there).trans (stays.trans before)

/-- The first of two bindings that share a toggle is not wanted although the toggle is set. -/
theorem unwanted_despite_shared_toggle :
    let hydrated := Page.run 60 (Page.sharing.move (.ask (.hydrate 0)))
    let page := Page.run 60 (hydrated.move (.ask (.toggle "on" true)))
    Page.sharing.HasIdleScripts ∧
      (∀ element, Page.sharing.hooks.ReadsToggle Page.sharing.scene.tree "on" element) ∧
      (∃ passed, Run (Move.Switches "on") hydrated passed page) ∧ page.isAtRest ∧
      page.phase 0 ≠ .destroyed ∧ page.wants 0 ≠ page.scene.toggleValue "on" := by
  intro hydrated page
  have hydratedRest : hydrated.isAtRest := by decide +kernel
  have sets : Move.Switches "on" (.ask (.toggle "on" true)) := rfl
  have run : Run (Move.Switches "on") hydrated _ page :=
    (Run.begin.move (.ask (.toggle "on" true)) hydratedRest sets).onward 60
  exact ⟨Page.hasIdleScripts_sharing, Page.readsToggle_sharing, ⟨_, run⟩, by decide +kernel⟩

end Run

end Hydration
