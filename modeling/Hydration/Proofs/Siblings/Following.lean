import Hydration.Proofs.Pairs.Listing
import Hydration.Proofs.Siblings.Lockstep

/-!
# One page follows another

A step of the page without extra elements is followed by the page that has them.
When an element that is not extra is bound, or its context begins to be watched,
more stands for each other from then on.  The extra elements whose turn comes
before it are passed over: each is bound and rejected, which takes a few steps
more and disturbs nothing.
-/

namespace Hydration

theorem Scene.Alike.mono
    {contrast : Contrast}
    {links more : Links}
    {plain mixed : Scene}
    (alike : plain.Alike contrast links mixed)
    (bindings : ∀ key twin, links.bindings key twin → more.bindings key twin)
    (monitors : more.monitors = links.monitors) :
    plain.Alike contrast more mixed := by
  obtain ⟨moreBindings, moreMonitors⟩ := more
  cases monitors
  exact { alike with
    watches := fun watch => Watch.rel_mono (alike.watches watch) bindings fun _ _ => id }

/-- Bindings that are made on both pages stand for each other. -/
def Links.bind (links : Links) (plain mixed : Page) : Links :=
  { links with
    bindings := alongside links.bindings plain.bindings.size mixed.bindings.size 1 }

namespace Page

namespace Parallel

variable {contrast : Contrast} {links : Links} {plain mixed : Page} {key twin : BindingId}

theorem popped
    {outer outerTwin : List Call}
    (parallel : plain.Parallel contrast links mixed)
    (rest : List.Forall₂ (Call.Matches contrast links) outer outerTwin) :
    ({ plain with stack := outer } : Page).Parallel contrast links
      { mixed with stack := outerTwin } :=
  { parallel with stack := rest }

theorem matchesContext_eq
    (parallel : plain.Parallel contrast links mixed)
    (pair : links.bindings key twin) :
    mixed.matchesContext twin = plain.matchesContext key := by
  obtain ⟨binding, found, foundTwin, _⟩ := parallel.twins key twin pair
  simp only [matchesContext, found, foundTwin, Option.bind_some]
  cases binding.watch with
  | none => rfl
  | some watch =>
      have related := parallel.scene.watches watch
      simp only [Scene.watchValue]
      generalize plain.scene.watches.get? watch = entry at related
      generalize mixed.scene.watches.get? watch = entryTwin at related
      cases related with
      | none => rfl
      | some alike => exact parallel.scene.allHold_eq alike.monitors

/-- A context is watched on both pages from now on. -/
theorem watched
    {added : List Monitor}
    {after afterTwin : Scene}
    (parallel : plain.Parallel contrast links mixed)
    (pair : links.bindings key twin)
    (extension : plain.scene.Extends plain.pinned added after)
    (extensionTwin : mixed.scene.Extends mixed.pinned added afterTwin)
    (context : Context) :
    let keys := List.range' plain.scene.monitors.size added.length
    let keysTwin := List.range' mixed.scene.monitors.size added.length
    let watch := plain.scene.watches.size
    ({ plain with
        scene := (after.addWatch context keys).listen watch (.binding key) } : Page).Parallel
      contrast (links.watch plain.scene mixed.scene added.length)
      { mixed with
        scene := (afterTwin.addWatch context keysTwin).listen watch (.binding twin) } := by
  intro keys keysTwin watch
  have size : after.watches.size = watch := by rw [extension.watches]
  have sizeTwin : afterTwin.watches.size = watch := by
    rw [extensionTwin.watches, parallel.scene.watches_size]
  have made := parallel.scene.addWatch extension extensionTwin context
  have found : (after.addWatch context keys).watches.get? watch =
      some ⟨context, keys, [], none, false, false⟩ := by
    rw [Scene.addWatch, Table.get?_push, if_pos size.symm]
  have foundTwin : (afterTwin.addWatch context keysTwin).watches.get? watch =
      some ⟨context, keysTwin, [], none, false, false⟩ := by
    rw [Scene.addWatch, Table.get?_push, if_pos sizeTwin.symm]
  have grown : links.Extends (links.watch plain.scene mixed.scene added.length) :=
    ⟨fun _ _ => id, fun _ _ => .inl⟩
  exact { parallel with
    scene := made.listen found foundTwin ⟨rfl, rfl⟩ ⟨rfl, rfl⟩ pair
    executor := parallel.executor.mono fun _ _ task => ⟨task.bindings, task.attempt, task.pending⟩
    stack := parallel.stack.imp fun _ _ same => same.mono grown }

/-- Bindings that stand for each other are started together. -/
theorem start
    (parallel : plain.Parallel contrast links mixed)
    (pair : links.bindings key twin) :
    ∃ more, (plain.start key).Parallel contrast more (mixed.start twin) := by
  obtain ⟨binding, found, foundTwin, _, strategies⟩ := parallel.twins key twin pair
  have headless : binding.hooks.factories.IsHeadless := by
    rw [strategies]
    exact parallel.fair.headless
  simp only [Page.start, found, foundTwin]
  split
  · exact ⟨links, parallel⟩
  · cases binding.context with
    | error fault => exact ⟨links, parallel.report pair _⟩
    | ok context =>
        obtain ⟨after, extension, result⟩ := Scene.watch_eq headless parallel.scene.plainTidy
          plain.pinned binding.element context
        obtain ⟨afterTwin, extensionTwin, resultTwin⟩ := Scene.watch_eq headless
          parallel.scene.mixedTidy mixed.pinned binding.element context
        have same : mixed.scene.plan binding.hooks.factories binding.element context.conditions =
            plain.scene.plan binding.hooks.factories binding.element context.conditions :=
          Scene.plan_congr parallel.scene.viewport parallel.scene.seen context.conditions
        rw [same] at extensionTwin resultTwin
        generalize plain.scene.plan binding.hooks.factories binding.element context.conditions =
          plan at extension result extensionTwin resultTwin
        simp only [result, resultTwin]
        cases plan.2 with
        | some fault =>
            have extended : ({ plain with scene := after } : Page).Parallel contrast links
                { mixed with scene := afterTwin } :=
              { parallel with scene := parallel.scene.extend extension extensionTwin }
            exact ⟨links, extended.report pair _⟩
        | none =>
            have listening := (parallel.watched pair extension extensionTwin context).changeBinding
              pair (fun binding => { binding with watch := some plain.scene.watches.size })
              fun _ => rfl
            refine ⟨links.watch plain.scene mixed.scene plan.1.length, ?_⟩
            simp only [parallel.scene.watches_size]
            rw [listening.matchesContext_eq pair]
            split
            · exact listening.push (.cons (.wish (by simp) pair) .nil)
            · exact listening

/-- The same is read from an element that is not extra. -/
theorem read_eq
    {element : ElementId}
    (parallel : plain.Parallel contrast links mixed)
    (spared : contrast.isExtra element = false)
    (reader : Reader) :
    reader.read mixed.scene.tree element = reader.read plain.scene.tree element := by
  cases reader with
  | constant => rfl
  | carried name =>
      rw [Reader.read, Reader.read, parallel.scene.mixedTree, parallel.scene.plainTree]
      exact parallel.fair.attributes element spared name

/-- The bindings of extra elements are no bindings of the others. -/
theorem isBound_eq
    {element : ElementId}
    (parallel : plain.Parallel contrast links mixed)
    (spared : contrast.isExtra element = false)
    (label : String) :
    mixed.isBound element label = plain.isBound element label := by
  rw [Bool.eq_iff_iff, isBound, isBound, parallel.plainModules, parallel.mixedModules,
    List.any_eq_true, List.any_eq_true]
  constructor
  · rintro ⟨twin, known, binds⟩
    by_cases linked : ∃ key, links.bindings key twin
    · obtain ⟨key, pair⟩ := linked
      obtain ⟨binding, found, foundTwin, _⟩ := parallel.twins key twin pair
      refine ⟨key, List.mem_range.mpr (parallel.plainKnown pair), ?_⟩
      rwa [found, ← foundTwin]
    · obtain ⟨extra, _⟩ := parallel.others twin (List.mem_range.mp known) (not_exists.mp linked)
      obtain ⟨binding, found, isExtra⟩ := (Option.any_eq_true _ _).mp extra
      rw [found, Option.any_some, Bool.and_eq_true, decide_eq_true_iff] at binds
      rw [binds.1, spared] at isExtra
      cases isExtra
  · rintro ⟨key, known, binds⟩
    obtain ⟨twin, pair⟩ := parallel.covered key (List.mem_range.mp known)
    obtain ⟨binding, found, foundTwin, _⟩ := parallel.twins key twin pair
    refine ⟨twin, List.mem_range.mpr (parallel.mixedKnown pair), ?_⟩
    rwa [foundTwin, ← found]

theorem labelOf?_eq
    {element : ElementId}
    (parallel : plain.Parallel contrast links mixed)
    (spared : contrast.isExtra element = false)
    (hooks : Hooks) :
    mixed.labelOf? hooks element = plain.labelOf? hooks element := by
  simp only [labelOf?, parallel.read_eq spared, parallel.isBound_eq spared]

theorem bindingOf_eq
    {element : ElementId}
    (parallel : plain.Parallel contrast links mixed)
    (spared : contrast.isExtra element = false)
    (hooks : Hooks)
    (label : String) :
    mixed.bindingOf hooks element label = plain.bindingOf hooks element label := by
  simp only [bindingOf, nameOf, parallel.registry, parallel.read_eq spared]

/-- A binding that is made on both pages stands for itself. -/
theorem enlist
    (parallel : plain.Parallel contrast links mixed)
    (binding : Binding)
    (spared : contrast.isExtra binding.element = false)
    (strategies : binding.hooks = contrast.hooks) :
    (plain.enlist binding).Parallel contrast (links.bind plain mixed) (mixed.enlist binding) := by
  have grown : links.Extends (links.bind plain mixed) := ⟨fun _ _ => .inl, fun _ _ => id⟩
  have size (page : Page) : (page.enlist binding).bindings.size = page.bindings.size + 1 :=
    Table.size_push _ _
  have binding? (page : Page) (key : BindingId) : (page.enlist binding).binding? key =
      if key = page.bindings.size then some binding else page.binding? key :=
    binding?_addBinding page binding key
  have pair : (links.bind plain mixed).bindings plain.bindings.size mixed.bindings.size :=
    .inr ⟨0, Nat.one_pos, rfl, rfl⟩
  have news {key twin : BindingId} (new : (links.bind plain mixed).bindings key twin) :
      links.bindings key twin ∨ key = plain.bindings.size ∧ twin = mixed.bindings.size := by
    rcases new with old | ⟨index, first, rfl, rfl⟩
    · exact .inl old
    · rw [Nat.lt_one_iff.mp first]
      exact .inr ⟨rfl, rfl⟩
  refine { parallel with
    scene := parallel.scene.mono grown.bindings rfl
    executor := parallel.executor.mono fun _ _ task =>
      ⟨grown.bindings _ _ task.bindings, task.attempt, task.pending⟩
    stack := parallel.stack.imp fun _ _ same => same.mono grown
    ordered := parallel.ordered.alongside
      (fun _ _ pair => ⟨parallel.plainKnown pair, parallel.mixedKnown pair⟩) 1
    twins := fun key twin linked => ?_
    covered := fun key known => ?_
    stories := fun key twin linked => ?_
    plainSilent := fun key beyond => parallel.plainSilent key ?_
    mixedSilent := fun twin beyond => parallel.mixedSilent twin ?_
    others := fun twin known unlinked => ?_
    plainModules := ?_
    mixedModules := ?_ }
  · rw [binding?, binding?]
    rcases news linked with old | ⟨rfl, rfl⟩
    · rw [if_neg (Nat.ne_of_lt (parallel.plainKnown old)),
        if_neg (Nat.ne_of_lt (parallel.mixedKnown old))]
      exact parallel.twins key twin old
    · rw [if_pos rfl, if_pos rfl]
      exact ⟨binding, rfl, rfl, spared, strategies⟩
  · rw [size] at known
    rcases Nat.lt_succ_iff_lt_or_eq.mp known with old | rfl
    · obtain ⟨twin, linked⟩ := parallel.covered key old
      exact ⟨twin, .inl linked⟩
    · exact ⟨_, pair⟩
  · rcases news linked with old | ⟨rfl, rfl⟩
    · exact parallel.stories key twin old
    · have silent := parallel.plainSilent _ (Nat.le_refl plain.bindings.size)
      have silentTwin := parallel.mixedSilent _ (Nat.le_refl mixed.bindings.size)
      exact silentTwin.trans (congrArg (List.map _) silent).symm
  · exact Nat.le_of_succ_le ((size plain).symm.trans_le beyond)
  · exact Nat.le_of_succ_le ((size mixed).symm.trans_le beyond)
  · have old : twin ≠ mixed.bindings.size := by
      rintro rfl
      exact unlinked _ pair
    rw [size] at known
    obtain ⟨extra, rejects⟩ := parallel.others twin
      ((Nat.lt_succ_iff_lt_or_eq.mp known).resolve_right old) fun key linked =>
        unlinked key (.inl linked)
    have same := (binding? mixed twin).trans (if_neg old)
    refine ⟨?_, rejects.congr same rfl⟩
    rw [isExtra, same]
    exact extra
  · rw [size, List.range_succ, ← parallel.plainModules]
    rfl
  · rw [size, List.range_succ, ← parallel.mixedModules]
    rfl

/-- An element that is not extra is bound on both pages, or on neither of them. -/
theorem hydrateNext
    {element : ElementId}
    (parallel : plain.Parallel contrast links mixed)
    (spared : contrast.isExtra element = false)
    (rest : List ElementId) :
    ∃ more,
      (plain.hydrateNext contrast.hooks (element :: contrast.originals rest)).Parallel contrast more
        (mixed.hydrateNext contrast.hooks (element :: rest)) := by
  have waiting := parallel.push (.cons (.hydrate rest) .nil)
  have same := parallel.labelOf?_eq spared contrast.hooks
  cases found : plain.labelOf? contrast.hooks element with
  | none =>
      rw [hydrateNext_of_skipped found, hydrateNext_of_skipped (same.trans found)]
      exact ⟨links, waiting⟩
  | some label =>
      rw [hydrateNext_of_bound found, hydrateNext_of_bound (same.trans found),
        parallel.bindingOf_eq spared]
      have bound := waiting.enlist (plain.bindingOf contrast.hooks element label) spared rfl
      refine ⟨_, bound.push (.cons (.wish (by simp) ?_) .nil)⟩
      exact .inr ⟨0, Nat.one_pos, rfl, rfl⟩

end Parallel

end Page

end Hydration
