import Hydration.Proofs.GlitchFreedom
import Hydration.Proofs.Passive.Visiting

/-!
# No monitor is left behind

Whenever a page is at rest, the monitors of media queries that live are those of
the bindings that were started with success and have not ended, and those of the
watches that the host has not dropped: one for each media query of their
contexts.  Monitors of contexts that could not be watched are gone, and so are
those of bindings that have ended.  Once all bindings have ended and the host has
dropped its watches, nobody is told of a change any more.
-/

namespace Hydration

/--
The media queries for which a binding has monitors: those of its context if this
can be watched, until the binding ends.
-/
def Binding.mediaTerms (binding : Binding) : List Condition :=
  match binding.context with
  | .error _ => []
  | .ok context =>
      let observable := context.conditions.all fun condition =>
        (condition.source? binding.hooks.factories binding.element).isSome
      if observable ∧ binding.phase ≠ .destroyed then context.mediaTerms else []

/-- The media queries for which the host keeps monitors in a watch of its own, disposed or not. -/
def Watch.standaloneTerms (entry : Watch) : List Condition :=
  if entry.isStandalone && !entry.dropped then entry.context.mediaTerms else []

/-- The media queries for which monitors are to live. -/
def Page.mediaTerms (page : Page) : List Condition :=
  page.bindings.entries.flatMap Binding.mediaTerms ++
    page.scene.watches.entries.flatMap Watch.standaloneTerms

theorem Binding.mediaTerms_of_observes
    {binding : Binding}
    {context : Context}
    (observes : binding.Observes context)
    (living : binding.phase ≠ .destroyed) :
    binding.mediaTerms = context.mediaTerms := by
  obtain ⟨read, asks⟩ := observes
  simp only [mediaTerms, read]
  exact if_pos ⟨List.all_eq_true.mpr asks, living⟩

theorem Binding.mediaTerms_of_not_observes
    {binding : Binding}
    (ended : ∀ context, binding.Observes context → binding.phase = .destroyed) :
    binding.mediaTerms = [] := by
  cases read : binding.context with
  | error fault => simp only [mediaTerms, read]
  | ok context =>
      simp only [mediaTerms, read]
      refine if_neg fun both => both.2 ?_
      exact ended context ⟨read, List.all_eq_true.mp both.1⟩

/-- Going through the keys of a table is going through its entries. -/
theorem Table.flatMap_range
    {α β : Type}
    (table : Table α)
    (parts : α → List β) :
    (List.range table.size).flatMap (fun key => ((table.get? key).map parts).getD []) =
      table.entries.flatMap parts := by
  have keys : (List.range table.size).map table.get? = table.entries.map some := by
    refine List.ext_getElem? fun key => ?_
    by_cases within : key < table.entries.length
    · simp [Table.size, Table.get?, within]
    · simp [Table.size, within]
  have found := congrArg (List.flatMap fun entry => (entry.map parts).getD []) keys
  rwa [List.flatMap_map, List.flatMap_map] at found

theorem flatMap_filter
    {α β : Type}
    (property : α → Bool)
    (parts : α → List β)
    (entries : List α) :
    (entries.filter property).flatMap parts =
      entries.flatMap fun entry => if property entry then parts entry else [] := by
  induction entries with
  | nil => rfl
  | cons entry rest inductionHypothesis =>
      rw [List.filter_cons, List.flatMap_cons]
      split <;> simp [inductionHypothesis]

namespace Page

variable {page : Page}

/-- The watches that bindings have, by the order of the bindings. -/
def boundWatches (page : Page) : List WatchId :=
  (List.range page.bindings.size).filterMap page.watch?

/-- The watches that the host has made and not dropped. -/
def standaloneWatches (page : Page) : List WatchId :=
  page.scene.watches.keysWhere fun _ entry => entry.isStandalone && !entry.dropped

theorem mem_boundWatches {watch : WatchId} :
    watch ∈ page.boundWatches ↔ ∃ key, page.watch? key = some watch := by
  rw [boundWatches, List.mem_filterMap]
  refine exists_congr fun key => and_iff_right_of_imp fun watched => ?_
  obtain ⟨outlook, found, _⟩ := watch?_eq_some_iff.mp watched
  obtain ⟨binding, there, _⟩ := Option.map_eq_some_iff.mp found
  exact List.mem_range.mpr (Table.lt_size_of_found there)

/-- A watch that was not dropped is that of a binding or one of the host. -/
theorem Belongs.mem_watches (belongs : page.Belongs) (watch : WatchId) :
    watch ∈ page.boundWatches ++ page.standaloneWatches ↔
      ∃ entry, page.scene.watches.get? watch = some entry ∧ entry.dropped = false := by
  rw [List.mem_append, mem_boundWatches, standaloneWatches, Table.mem_keysWhere]
  constructor
  · rintro (⟨key, watched⟩ | ⟨entry, found, kept⟩)
    · obtain ⟨entry, found, living, _⟩ :=
        Scene.owner?_eq_some_iff.mp ((belongs.owners key watch).mp watched)
      exact ⟨entry, found, living⟩
    · simp only [Bool.and_eq_true, Bool.not_eq_true'] at kept
      exact ⟨entry, found, kept.2⟩
  · rintro ⟨entry, found, living⟩
    cases told : entry.isStandalone with
    | true => exact .inr ⟨entry, found, by rw [told, living]; rfl⟩
    | false =>
        obtain ⟨key, isBinding⟩ :=
          Option.isSome_iff_exists.mp (Option.isNone_eq_false_iff.mp told)
        refine .inl ⟨key, (belongs.owners key watch).mpr ?_⟩
        rw [Scene.owner?, found, Option.bind_some, living]
        exact isBinding

theorem Belongs.nodup_watches (belongs : page.Belongs) :
    (page.boundWatches ++ page.standaloneWatches).Nodup := by
  refine List.nodup_append.mpr ⟨?_, List.nodup_range.filter _, ?_⟩
  · refine List.nodup_range.filterMap fun first second watch mine theirs => ?_
    have owned := (belongs.owners first watch).mp mine
    exact Option.some.inj (owned.symm.trans ((belongs.owners second watch).mp theirs))
  · rintro watch bound other standalone rfl
    obtain ⟨key, watched⟩ := mem_boundWatches.mp bound
    obtain ⟨entry, found, kept⟩ := Table.mem_keysWhere.mp standalone
    have nobody : page.scene.owner? watch = none := by
      refine Scene.owner?_of_standalone fun known isKnown => ?_
      cases found.symm.trans isKnown
      exact (Bool.and_eq_true_iff.mp kept).1
    cases nobody.symm.trans ((belongs.owners key watch).mp watched)

/-- A binding that has a watch observes its context and has not ended. -/
theorem Upkeep.observes
    {key : BindingId}
    {binding : Binding}
    {watch : WatchId}
    (upkeep : page.Upkeep)
    (found : page.binding? key = some binding)
    (watching : binding.watch = some watch) :
    ∃ entry, page.scene.watches.get? watch = some entry ∧ binding.Observes entry.context ∧
      binding.phase ≠ .destroyed := by
  have outlook := outlook?_of_found found
  have watched : page.watch? key = some watch :=
    watch?_eq_some_iff.mpr ⟨binding.outlook, outlook, watching⟩
  obtain ⟨entry, there, _⟩ :=
    Scene.owner?_eq_some_iff.mp ((upkeep.belongs.owners key watch).mp watched)
  have living := upkeep.living key watch watched
  rw [(life_of_found found).2.1] at living
  exact ⟨entry, there, upkeep.belongs.served key _ watch entry outlook watching there, living⟩

/-- At rest a binding without a watch has ended, or its context cannot be watched. -/
theorem Upkeep.destroyed
    {key : BindingId}
    {binding : Binding}
    {context : Context}
    (upkeep : page.Upkeep)
    (rest : page.isAtRest)
    (found : page.binding? key = some binding)
    (unwatched : binding.watch = none)
    (observes : binding.Observes context) :
    binding.phase = .destroyed := by
  have ended :=
    upkeep.started.started key _ context (outlook?_of_found found) unwatched observes
  rw [(life_of_found found).2.1] at ended
  exact ended.resolve_right (by simp [stack_of_rest rest])

/-- A binding has a watch if and only if its context can be watched and it has not ended. -/
theorem Upkeep.isSome_watch_iff
    {key : BindingId}
    {binding : Binding}
    (upkeep : page.Upkeep)
    (rest : page.isAtRest)
    (found : page.binding? key = some binding) :
    binding.watch.isSome ↔ (∃ context, binding.Observes context) ∧ binding.phase ≠ .destroyed := by
  cases watching : binding.watch with
  | some watch =>
      obtain ⟨entry, _, observes, living⟩ := upkeep.observes found watching
      exact iff_of_true rfl ⟨⟨entry.context, observes⟩, living⟩
  | none =>
      refine iff_of_false (by simp) ?_
      rintro ⟨⟨context, observes⟩, living⟩
      exact living (upkeep.destroyed rest found watching observes)

theorem Upkeep.mediaTerms_watch
    {key : BindingId}
    {binding : Binding}
    (upkeep : page.Upkeep)
    (rest : page.isAtRest)
    (found : page.binding? key = some binding) :
    binding.watch.toList.flatMap page.scene.mediaTerms = binding.mediaTerms := by
  cases watching : binding.watch with
  | some watch =>
      obtain ⟨entry, there, observes, living⟩ := upkeep.observes found watching
      rw [Binding.mediaTerms_of_observes observes living]
      simp [Scene.mediaTerms, there]
  | none =>
      rw [Binding.mediaTerms_of_not_observes
        fun _ observes => upkeep.destroyed rest found watching observes]
      rfl

theorem pinned_of_rest (rest : page.isAtRest) : page.pinned = [] := by
  rw [pinned, stack_of_rest rest, List.flatMap_nil]

/-- At rest as many monitors of media queries live as there are media queries to be judged. -/
theorem Upkeep.length_mediaMonitors (upkeep : page.Upkeep) (rest : page.isAtRest) :
    (page.scene.mediaMonitors page.pinned).length = page.mediaTerms.length := by
  have belongs := upkeep.belongs
  rw [pinned_of_rest rest, belongs.assigned.length_mediaMonitors belongs.unheld
    belongs.nodup_watches belongs.mem_watches, List.flatMap_append, mediaTerms]
  congr 2
  · rw [boundWatches, List.filterMap_eq_flatMap_toList, List.flatMap_assoc,
      ← page.bindings.flatMap_range]
    refine List.flatMap_congr fun key _ => ?_
    cases found : page.bindings.get? key with
    | none =>
        have absent : page.binding? key = none := found
        simp [watch?, outlook?, absent]
    | some binding =>
        rw [watch?_of_found found, upkeep.mediaTerms_watch rest found]
        rfl
  · rw [standaloneWatches, Table.keysWhere, flatMap_filter, ← page.scene.watches.flatMap_range]
    refine List.flatMap_congr fun watch _ => ?_
    cases found : page.scene.watches.get? watch with
    | none => rfl
    | some entry => simp [Scene.mediaTerms, found, Watch.standaloneTerms]

/-- If all bindings have ended and the host has dropped its watches, no monitor lives. -/
theorem Upkeep.deserted
    (upkeep : page.Upkeep)
    (ended : ∀ binding ∈ page.bindings.entries, binding.phase = .destroyed)
    (dropped : ∀ entry ∈ page.scene.watches.entries, entry.isStandalone → entry.dropped)
    (key : MonitorId) :
    page.scene.isAlive [] key = false := by
  refine Bool.eq_false_iff.mpr fun alive => ?_
  have belongs := upkeep.belongs
  obtain ⟨watch, entry, found, living, _⟩ := Scene.watched_of_isAlive belongs.unheld alive
  rcases List.mem_append.mp ((belongs.mem_watches watch).mpr ⟨entry, found, living⟩) with
    bound | standalone
  · obtain ⟨other, watched⟩ := mem_boundWatches.mp bound
    obtain ⟨outlook, seen, _⟩ := watch?_eq_some_iff.mp watched
    obtain ⟨binding, there, _⟩ := Option.map_eq_some_iff.mp seen
    refine upkeep.living other watch watched ?_
    rw [(life_of_found there).2.1]
    exact ended binding (List.mem_of_getElem? there)
  · obtain ⟨known, isKnown, kept⟩ := Table.mem_keysWhere.mp standalone
    cases found.symm.trans isKnown
    have gone := dropped entry (List.mem_of_getElem? found) (Bool.and_eq_true_iff.mp kept).1
    cases living.symm.trans gone

/-- Where no monitor lives a change of the surroundings has nothing to tell. -/
structure Silent (before after : Page) : Prop where
  history : after.history = before.history
  bindings : after.bindings = before.bindings
  deserted : ∀ key, after.scene.isAlive [] key = false
  calls :
    ∀ call ∈ after.stack,
      call = .deliver [] ∨ ∃ request, call = .request request ∧ request.isChange

variable {after : Page}

/-- Where nothing is left to tell, no monitor is kept alive by a call. -/
theorem pinned_of_silent
    (calls :
      ∀ call ∈ page.stack,
        call = .deliver [] ∨ ∃ request, call = .request request ∧ request.isChange) :
    page.pinned = [] := by
  refine List.flatMap_eq_nil_iff.mpr fun call member => ?_
  rcases calls call member with rfl | ⟨request, rfl, _⟩ <;> rfl

/-- No monitor is left that could flip by a change. -/
theorem Silent.step_change
    {request : Request}
    {outer : List Call}
    (silent : page.Silent after)
    (changes : request.isChange)
    (stack : after.stack = .request request :: outer) :
    page.Silent after.step := by
  have calls := List.forall_mem_cons.mp (stack ▸ silent.calls)
  have unpinned : ({ after with stack := outer } : Page).pinned = [] := pinned_of_silent calls.2
  have refreshed (scene : Scene) (watches : scene.watches = after.scene.watches)
      (held : scene.held = after.scene.held) :
      page.Silent (({ after with stack := outer } : Page).refresh (scene, [])) := by
    refine ⟨silent.history, silent.bindings, fun key => ?_, ?_⟩
    · exact (Scene.isAlive_congr watches held).trans (silent.deserted key)
    · exact List.forall_mem_cons.mpr ⟨.inl rfl, calls.2⟩
  rw [step_of_stack stack]
  cases request with
  | resize viewport =>
      have nobody : after.scene.mediaMonitors [] = [] := by
        refine List.filter_eq_nil_iff.mpr fun key _ => ?_
        cases after.scene.monitors.get? key <;> simp [silent.deserted]
      simp only [carryOn, answer, unpinned, Scene.resize, nobody]
      exact refreshed _ rfl rfl
  | reveal element visible =>
      have nobody (keys : List MonitorId) : keys.filter (after.scene.isAlive []) = [] :=
        List.filter_eq_nil_iff.mpr fun key _ => by simp [silent.deserted]
      simp only [carryOn, answer, unpinned, Scene.reveal, nobody]
      exact refreshed _ rfl rfl
  | _ => cases changes

theorem Silent.step (silent : page.Silent after) : page.Silent after.step := by
  cases stack : after.stack with
  | nil => rwa [step_of_nil stack]
  | cons call outer =>
      have calls := List.forall_mem_cons.mp (stack ▸ silent.calls)
      rcases calls.1 with rfl | ⟨request, rfl, changes⟩
      · rw [step_of_stack stack]
        exact ⟨silent.history, silent.bindings, silent.deserted, calls.2⟩
      · exact silent.step_change changes stack

/-- If no monitor lives then no listener is run however the surroundings change. -/
theorem silent_of_deserted
    {passed : List Page}
    (rest : page.isAtRest)
    (deserted : ∀ key, page.scene.isAlive [] key = false)
    (run : Run (fun move => ∃ request, move = .ask request ∧ request.isChange) page passed after) :
    page.Silent after := by
  induction run with
  | begin => exact ⟨rfl, rfl, deserted, by simp [stack_of_rest rest]⟩
  | move move _ _ permitted inductionHypothesis =>
      obtain ⟨request, rfl, changes⟩ := permitted
      obtain ⟨history, bindings, deserted, calls⟩ := inductionHypothesis
      refine ⟨history, bindings, deserted, ?_⟩
      exact List.forall_mem_cons.mpr ⟨.inr ⟨request, rfl, changes⟩, calls⟩
  | step _ inductionHypothesis => exact inductionHypothesis.step

/-- A page that has forgotten its bindings, and makes no new ones. -/
structure Forgets (page : Page) : Prop where
  tame : page.IsTame
  modules : page.modules = []
  calls : ∀ call ∈ page.stack, call.isTame ∨ ∃ keys, call = .destroyEach keys

theorem Forgets.step (forgets : page.Forgets) : page.step.Forgets := by
  cases stack : page.stack with
  | nil => rwa [step_of_nil stack]
  | cons call outer =>
      have calls := List.forall_mem_cons.mp (stack ▸ forgets.calls)
      rw [step_of_stack stack]
      rcases calls.1 with tame | ⟨keys, rfl⟩
      · have remains := Remains.carryOn { page with stack := outer } tame
        obtain ⟨added, pushed, gentle⟩ := remains.stack
        refine ⟨remains.scripts forgets.tame, remains.modules.trans forgets.modules, ?_⟩
        rw [pushed]
        exact List.forall_mem_append.mpr
          ⟨fun call member => .inl (gentle forgets.tame call member), calls.2⟩
      · cases keys with
        | nil => exact ⟨forgets.tame, forgets.modules, calls.2⟩
        | cons key rest =>
            refine ⟨forgets.tame, forgets.modules, ?_⟩
            exact List.forall_mem_cons.mpr ⟨.inl rfl,
              List.forall_mem_cons.mpr ⟨.inr ⟨rest, rfl⟩, calls.2⟩⟩

/-- The end of all bindings comes to rest with all bindings forgotten. -/
theorem exists_forgotten (rest : page.isAtRest) (tame : page.IsTame) :
    ∃ limit, let ended := Page.run limit (page.move (.ask .destroyAll))
      ended.isAtRest ∧ ended.modules = [] := by
  have asked : (page.move (.ask .destroyAll)).stack = [.request .destroyAll] :=
    congrArg (Call.request .destroyAll :: ·) (stack_of_rest rest)
  have forgets : (page.move (.ask .destroyAll)).step.Forgets := by
    rw [step_of_stack asked]
    exact ⟨tame, rfl, List.forall_mem_singleton.mpr (.inr ⟨_, rfl⟩)⟩
  have unwound : ∃ after, (page.move (.ask .destroyAll)).step.Leads after ∧ after.stack = [] ∧
      after.Forgets :=
    unwinds (fun _ _ _ _ forgets => forgets.step) _ _ (List.append_nil _).symm forgets
  obtain ⟨after, leads, stack, forgotten⟩ := unwound
  obtain ⟨limit, rfl⟩ := (Leads.step leads).exists_run
  exact ⟨limit, by simp [isAtRest, stack], forgotten.modules⟩

end Page

/--
Whenever a page is at rest there is one monitor for each media query of a context
that is watched: for a binding that was started with success and has not ended, or
for a watch that the host keeps.  The page still knows the bindings that have not
ended.  An end of all bindings ends every binding; once the host has dropped its
watches as well no monitor is left, and no change of the surroundings tells anybody.
-/
theorem Visit.mediaMonitors_accounted
    {start page : Page}
    (begins : start.Begins)
    (bare : start.IsBare)
    (idle : start.HasIdleScripts)
    (ofScene : start.hooks.factories.AreOfScene)
    (visit : Visit start page)
    (rest : page.isAtRest) :
    (page.scene.mediaMonitors page.pinned).length = page.mediaTerms.length ∧
      (∀ key binding, page.binding? key = some binding →
        (binding.watch.isSome ↔
          (∃ context, binding.Observes context) ∧ binding.phase ≠ .destroyed) ∧
        (binding.phase ≠ .destroyed → key ∈ page.modules)) ∧
      ∃ limit, let ended := Page.run limit (page.move (.ask .destroyAll))
        ended.isAtRest ∧ (∀ binding ∈ ended.bindings.entries, binding.phase = .destroyed) ∧
          ((∀ entry ∈ ended.scene.watches.entries, entry.isStandalone → entry.dropped) →
            ended.scene.mediaMonitors ended.pinned = [] ∧
              ∀ passed later,
                Run (fun move => ∃ request, move = .ask request ∧ request.isChange)
                  ended passed later →
                ended.Silent later) := by
  have upkeep := (visit.exists_run begins bare idle ofScene).1
  refine ⟨upkeep.length_mediaMonitors rest, fun key binding found => ⟨?_, ?_⟩, ?_⟩
  · exact upkeep.isSome_watch_iff rest found
  · exact upkeep.remembers.mem_modules rest found
  · obtain ⟨limit, ended, forgotten⟩ := Page.exists_forgotten rest upkeep.belongs.idle.isTame
    have onward := (visit.move (.ask .destroyAll) rest rfl (by simp)).onward limit
    have kept := (onward.exists_run begins bare idle ofScene).1
    have destroyed (binding : Binding)
        (member : binding ∈
          (Page.run limit (page.move (.ask .destroyAll))).bindings.entries) :
        binding.phase = .destroyed := by
      obtain ⟨key, found⟩ := List.mem_iff_getElem?.mp member
      refine Classical.byContradiction fun living => ?_
      have known := kept.remembers.mem_modules ended found living
      rw [forgotten] at known
      cases known
    refine ⟨limit, ended, destroyed, fun dropped => ⟨?_, fun passed later run => ?_⟩⟩
    · have deserted := kept.deserted destroyed dropped
      rw [Page.pinned_of_rest ended]
      refine List.filter_eq_nil_iff.mpr fun key _ => ?_
      cases (Page.run limit (page.move (.ask .destroyAll))).scene.monitors.get? key <;>
        simp [deserted]
    · exact Page.silent_of_deserted ended (kept.deserted destroyed dropped) run

/--
A binding with two media queries, a context that could not be watched to its end,
and a watch of the host with one, which keeps its monitor when it is disposed.
-/
theorem mediaMonitors_of_page_and_host :
    let start := Page.watching "@media print and @media screen and @visible"
    let hydrated := Page.run 60 (start.move (.ask (.hydrate 0)))
    let unwatched := (hydrated.watchFor 0 "@media print and @media (" 0).1
    let disposed := (unwatched.watchFor 1 "@media screen" 0).1.tend (.dispose 1)
    let ended := Page.run 60 ((disposed.tend (.drop 1)).move (.ask .destroyAll))
    (disposed.scene.mediaMonitors disposed.pinned).length = 3 ∧
      ended.scene.mediaMonitors ended.pinned = [] := by
  intro start hydrated unwatched disposed ended
  have hydratedRest : hydrated.isAtRest := by decide +kernel
  have endedRest : ended.isAtRest := by decide +kernel
  have hydration : Visit start hydrated :=
    (Visit.begin.move (.ask (.hydrate 0)) rfl rfl (by simp)).onward 60
  have standalone :
      ((unwatched.watchFor 1 "@media screen" 0).1.scene.watches.get? 1).all Watch.isStandalone ∧
        (disposed.scene.watches.get? 1).all Watch.isStandalone := by
    decide +kernel
  have visit : Visit start disposed :=
    ((hydration.watchFor hydratedRest _ _ _).watchFor (by decide +kernel) _ _ _).tend (.dispose 1)
      (by decide +kernel) ((Option.all_eq_true _ _).mp standalone.1)
  have dropping : Visit start (disposed.tend (.drop 1)) :=
    visit.tend (.drop 1) (by decide +kernel) ((Option.all_eq_true _ _).mp standalone.2)
  have counted :=
    visit.mediaMonitors_accounted (Page.begins_watching _) (Page.isBare_watching _)
      (Page.hasIdleScripts_watching _) Factories.areOfScene_install (by decide +kernel)
  obtain ⟨_, _, limit, rest, _, silence⟩ :=
    dropping.mediaMonitors_accounted (Page.begins_watching _) (Page.isBare_watching _)
      (Page.hasIdleScripts_watching _) Factories.areOfScene_install (by decide +kernel)
  rw [Page.run_eq_run rest endedRest] at silence
  refine ⟨counted.1.trans (by decide +kernel), (silence ?_).1⟩
  decide +kernel

end Hydration
