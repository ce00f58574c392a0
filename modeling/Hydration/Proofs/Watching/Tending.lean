import Hydration.Proofs.Watching.Calm
import Hydration.Proofs.Watching.Listening

/-!
# Bindings follow their contexts

On a calm page a binding is wanted exactly when its watch holds, unless a monitor
of the watch that flipped is still to tell it.  The law is broken for one binding
at a time and for one step only: while the call is on top of the stack that
starts the binding or tells it the value of its watch.
-/

namespace Hydration

/-- Whether a context was read that asks for media queries and for visibility alone. -/
def Binding.Observes (binding : Binding) (context : Context) : Prop :=
  binding.context = .ok context ∧
    ∀ condition ∈ context.conditions,
      (condition.source? binding.hooks.factories binding.element).isSome

theorem Binding.Observes.of_toOption
    {binding : Binding}
    {context : Context}
    (read : binding.context.toOption = some context)
    (known :
      ∀ condition ∈ context.conditions,
        (condition.source? binding.hooks.factories binding.element).isSome) :
    binding.Observes context := by
  refine ⟨?_, known⟩
  cases asked : binding.context with
  | error fault => simp [asked, Except.toOption] at read
  | ok context => simpa [asked, Except.toOption] using read

theorem Binding.Alike.observes
    {before after : Binding}
    {context : Context}
    (alike : before.Alike after)
    (observes : after.Observes context) :
    before.Observes context := by
  obtain ⟨read, known⟩ := observes
  rw [alike.context] at read
  rw [alike.hooks, alike.element] at known
  exact ⟨read, known⟩

theorem Scene.Spares.serves
    {before after : Scene}
    (spares : before.Spares after)
    {factories : Factories}
    {element : ElementId}
    {conditions : List Condition}
    {keys : List MonitorId}
    (serves : List.Forall₂ (before.Serves factories element) conditions keys) :
    List.Forall₂ (after.Serves factories element) conditions keys :=
  serves.imp fun _ key => Scene.Keeps.serves (spares.sources key)

namespace Page

/-- A monitor of a watch has flipped and is still to tell it. -/
def Awaits (page : Page) (entry : Watch) : Prop :=
  ∃ monitors, .deliver monitors ∈ page.stack ∧
    ∃ key ∈ monitors, key ∈ entry.monitors ∧ page.scene.Follows key

/-- Bindings follow their contexts, all but the `loose` ones. -/
structure Tended (loose : BindingId → Prop) (page : Page) : Prop where
  scripts : page.HasCalmScripts
  calls : ∀ call ∈ page.stack, call.isCalm
  sound : page.scene.Sound
  audience :
    ∀ watch entry, page.scene.watches.get? watch = some entry →
      ∃ key binding, entry.audience = some (.binding key) ∧
        page.binding? key = some binding ∧ binding.watch = some watch
  living : ∀ key binding, page.binding? key = some binding → binding.phase ≠ .destroyed
  served :
    ∀ key binding watch, page.binding? key = some binding → binding.watch = some watch →
      ∃ entry, page.scene.watches.get? watch = some entry ∧
        entry.audience = some (.binding key) ∧
        ∀ context, binding.context = .ok context →
          List.Forall₂ (page.scene.Serves binding.hooks.factories binding.element)
            context.conditions entry.monitors
  unwatched :
    ∀ key binding, page.binding? key = some binding → ¬ loose key → binding.watch = none →
      ∀ context, ¬ binding.Observes context
  heeded :
    ∀ key binding watch entry, page.binding? key = some binding → ¬ loose key →
      binding.watch = some watch → page.scene.watches.get? watch = some entry →
        binding.wanted = page.scene.watchValue watch ∨ page.Awaits entry

/-- Whether bindings follow their contexts, or the top call brings the last one to it. -/
inductive IsTended : Page → Prop where
  | settled
      {page : Page}
      (tended : page.Tended fun _ => False) :
      IsTended page
  | starting
      {page : Page}
      {key : BindingId}
      {binding : Binding}
      (tended : page.Tended fun other => other = key)
      (found : page.binding? key = some binding)
      (fresh : binding.IsFresh) :
      IsTended (page.push [.request (.bind .start key)])
  | telling
      {page : Page}
      {key : BindingId}
      {binding : Binding}
      {watch : WatchId}
      (tended : page.Tended fun other => other = key)
      (found : page.binding? key = some binding)
      (watched : binding.watch = some watch) :
      IsTended
        (page.push
          [.request (.bind (if page.scene.watchValue watch then .mount else .unmount) key)])

variable {page after : Page} {loose : BindingId → Prop} {key : BindingId} {binding : Binding}

theorem Keeps.earlier
    (keeps : page.Keeps after)
    (found : after.binding? key = some binding) :
    ∃ before, page.binding? key = some before ∧ before.Alike binding := by
  cases was : page.binding? key with
  | none =>
      cases (keeps.made key was).symm.trans found
  | some before =>
      obtain ⟨now, there, alike⟩ := keeps.kept key before was
      cases there.symm.trans found
      exact ⟨before, rfl, alike⟩

theorem Tended.mono
    {more : BindingId → Prop}
    (tended : page.Tended loose)
    (among : ∀ key, loose key → more key) :
    page.Tended more where
  scripts := tended.scripts
  calls := tended.calls
  sound := tended.sound
  audience := tended.audience
  living := tended.living
  served := tended.served
  unwatched key binding found tight :=
    tended.unwatched key binding found fun isLoose => tight (among key isLoose)
  heeded key binding watch entry found tight :=
    tended.heeded key binding watch entry found fun isLoose => tight (among key isLoose)

/-- What keeps scene and wishes keeps bindings following their contexts. -/
theorem Tended.keep
    (tended : page.Tended loose)
    (keeps : page.Keeps after) :
    after.Tended loose := by
  obtain ⟨added, stack, calm⟩ := keeps.stack
  refine ⟨keeps.scripts tended.scripts, ?_, ?_, ?_, ?_, ?_, ?_, ?_⟩
  · intro call member
    rw [stack] at member
    exact (List.mem_append.mp member).elim (calm call) (tended.calls call)
  · rw [keeps.scene]
    exact tended.sound
  · intro watch entry there
    rw [keeps.scene] at there
    obtain ⟨key, before, told, found, watched⟩ := tended.audience watch entry there
    obtain ⟨now, here, alike⟩ := keeps.kept key before found
    exact ⟨key, now, told, here, alike.watch.trans watched⟩
  · intro key binding found destroyed
    obtain ⟨before, was, alike⟩ := keeps.earlier found
    exact tended.living key before was (alike.phase destroyed)
  · intro key binding watch found watched
    obtain ⟨before, was, alike⟩ := keeps.earlier found
    rw [alike.watch] at watched
    rw [keeps.scene, alike.hooks, alike.element, alike.context]
    exact tended.served key before watch was watched
  · intro key binding found tight unwatched context observes
    obtain ⟨before, was, alike⟩ := keeps.earlier found
    rw [alike.watch] at unwatched
    exact tended.unwatched key before was tight unwatched context (alike.observes observes)
  · intro key binding watch entry found tight watched there
    obtain ⟨before, was, alike⟩ := keeps.earlier found
    rw [alike.watch] at watched
    rw [keeps.scene] at there
    rw [alike.wanted, keeps.scene]
    refine (tended.heeded key before watch entry was tight watched there).imp_right ?_
    rintro ⟨monitors, member, flipped⟩
    refine ⟨monitors, ?_, by rwa [keeps.scene]⟩
    rw [stack]
    exact List.mem_append_right added member

/-- A call that delivers nothing may be taken off the stack. -/
theorem Tended.pop
    {call : Call}
    {rest : List Call}
    (tended : page.Tended loose)
    (stack : page.stack = call :: rest)
    (silent : ∀ monitor monitors, call ≠ .deliver (monitor :: monitors)) :
    { page with stack := rest }.Tended loose := by
  refine ⟨tended.scripts, ?_, tended.sound, tended.audience, tended.living, tended.served,
    tended.unwatched, ?_⟩
  · intro other member
    exact tended.calls other (by rw [stack]; exact List.mem_cons_of_mem _ member)
  · intro key binding watch entry found tight watched there
    refine (tended.heeded key binding watch entry found tight watched there).imp_right ?_
    rintro ⟨monitors, member, monitor, among, flipped⟩
    rw [stack] at member
    rcases List.mem_cons.mp member with rfl | outer
    · cases monitors with
      | nil => cases among
      | cons first others => exact (silent first others rfl).elim
    · exact ⟨monitors, outer, monitor, among, flipped⟩

/-- A binding that follows its context need not be left out any more. -/
theorem Tended.tighten
    (tended : page.Tended fun other => other = key)
    (found : page.binding? key = some binding)
    (unwatched : binding.watch = none → ∀ context, ¬ binding.Observes context)
    (heeded :
      ∀ watch, binding.watch = some watch → binding.wanted = page.scene.watchValue watch) :
    page.Tended fun _ => False := by
  refine { tended with unwatched := ?_, heeded := ?_ }
  · intro other there here _
    by_cases same : other = key
    · subst same
      cases found.symm.trans here
      exact unwatched
    · exact tended.unwatched other there here same
  · intro other there watch entry here _ watched isThere
    by_cases same : other = key
    · subst same
      cases found.symm.trans here
      exact .inl (heeded watch watched)
    · exact tended.heeded other there watch entry here same watched isThere

/-- The scene may change as long as watches whose value has changed are told. -/
theorem Tended.change
    {scene : Scene}
    {calls : List Call}
    (tended : page.Tended loose)
    (sound : scene.Sound)
    (spares : page.scene.Spares scene)
    (watches : scene.watches = page.scene.watches)
    (calm : ∀ call ∈ calls, call.isCalm)
    (told :
      ∀ watch entry, page.scene.watches.get? watch = some entry →
        scene.watchValue watch = page.scene.watchValue watch ∨
          ({ page with scene }.push calls).Awaits entry) :
    ({ page with scene }.push calls).Tended loose := by
  refine ⟨tended.scripts, ?_, sound, ?_, tended.living, ?_, tended.unwatched, ?_⟩
  · intro call member
    exact (List.mem_append.mp member).elim (calm call) (tended.calls call)
  · intro watch entry there
    exact tended.audience watch entry (by rwa [← watches])
  · intro key binding watch found watched
    obtain ⟨entry, there, audience, serves⟩ := tended.served key binding watch found watched
    exact ⟨entry, spares.watches watch entry there, audience,
      fun context read => spares.serves (serves context read)⟩
  · intro key binding watch entry found tight watched there
    have there : page.scene.watches.get? watch = some entry := by
      rwa [← watches]
    rcases told watch entry there with same | awaits
    · refine (tended.heeded key binding watch entry found tight watched there).imp ?_ ?_
      · intro heeded
        exact heeded.trans same.symm
      · rintro ⟨monitors, member, monitor, among, mine, follows⟩
        exact ⟨monitors, List.mem_append_right calls member, monitor, among, mine,
          spares.follows follows⟩
    · exact .inr awaits

end Page

end Hydration
