import Hydration.Proofs.CurrentMonitors
import Hydration.Proofs.Passive.Linked
import Hydration.Proofs.Watching.Owning

/-!
# Watches belong to bindings or to the host

While scripts are idle the host may watch contexts beside the bindings.  A watch
that was not dropped belongs to the binding that has it, or to no binding; and a
binding that has a watch observes the context of this watch.
-/

namespace Hydration

/-- Whether the monitors of a binding are those of the scene. -/
def Outlook.IsOfScene (outlook : Outlook) : Prop :=
  outlook.hooks.factories.AreOfScene

namespace Page

/-- Nobody keeps monitors but watches, and bindings have the watches that belong to them. -/
structure Belongs (page : Page) : Prop where
  idle : page.HasIdleScripts
  unheld : ∀ monitor, some monitor ∉ page.scene.held.entries
  assigned : page.scene.Assigned
  owners :
    ∀ key watch, page.watch? key = some watch ↔ page.scene.owner? watch = some key
  served :
    ∀ key outlook watch entry, page.outlook? key = some outlook → outlook.watch = some watch →
      page.scene.watches.get? watch = some entry → outlook.Observes entry.context

variable {page after : Page} {key : BindingId} {outlook : Outlook} {context : Context}
variable {scene : Scene} {watch : WatchId}

theorem Belongs.frame (belongs : page.Belongs) (frames : page.Frames after) : after.Belongs where
  idle := by simpa only [HasIdleScripts, frames.scripts] using belongs.idle
  unheld := by simpa only [frames.scene] using belongs.unheld
  assigned := by simpa only [frames.scene] using belongs.assigned
  owners := by simpa only [frames.scene, frames.watch?] using belongs.owners
  served := by simpa only [frames.scene, frames.outlook] using belongs.served

/-- The scene may change as long as bindings keep their watches, and these their contexts. -/
theorem Belongs.rescene
    (belongs : page.Belongs)
    (assigned : scene.Assigned)
    (held : scene.held = page.scene.held)
    (owners : ∀ watch, scene.owner? watch = page.scene.owner? watch)
    (contexts :
      ∀ watch entry key, page.scene.owner? watch = some key →
        scene.watches.get? watch = some entry →
          ∃ was, page.scene.watches.get? watch = some was ∧ entry.context = was.context) :
    ({ page with scene } : Page).Belongs := by
  refine ⟨belongs.idle, ?_, assigned, ?_, ?_⟩
  · rw [held]
    exact belongs.unheld
  · intro key watch
    rw [owners]
    exact belongs.owners key watch
  · intro key outlook watch entry found watched now
    have owned := (belongs.owners key watch).mp (watch?_eq_some_iff.mpr ⟨outlook, found, watched⟩)
    obtain ⟨was, there, same⟩ := contexts watch entry key owned now
    rw [same]
    exact belongs.served key outlook watch was found watched there

/-- Watches may be changed as long as they are made for the same and belong to the same. -/
theorem Belongs.sustain
    (belongs : page.Belongs)
    (sustains : page.scene.Sustains scene)
    (held : scene.held = page.scene.held)
    (owners : ∀ watch, scene.owner? watch = page.scene.owner? watch) :
    ({ page with scene } : Page).Belongs := by
  refine belongs.rescene (belongs.assigned.sustain sustains) held owners ?_
  intro watch entry key _ now
  obtain ⟨was, there, same, _⟩ := sustains.watches watch entry now
  exact ⟨was, there, same⟩

/-- A binding that is given a watch has it, and the watch belongs to this binding. -/
theorem Belongs.watched
    (belongs : page.Belongs)
    (tracks : page.scene.Tracks page.scene.Watched)
    (ofScene : outlook.IsOfScene)
    (found : page.outlook? key = some outlook)
    (unwatched : outlook.watch = none)
    (read : outlook.context = .ok context)
    (result :
      page.scene.watch page.pinned outlook.hooks.factories outlook.element context =
        (scene, .ok watch))
    (listens : after.scene = scene.listen watch (.binding key))
    (scripts : after.scripts = page.scripts)
    (outlooks :
      ∀ other, after.outlook? other =
        if other = key then some { outlook with watch := some watch } else page.outlook? other) :
    after.Belongs := by
  obtain ⟨made, keys, all, rfl, rfl, grows, _, apart, answers⟩ := tracks.watch_ok result
  have asks := Scene.source?_of_makeAll ofScene all
  have observes : outlook.Observes context := ⟨read, asks⟩
  obtain ⟨subscriptions, rewire, _, installs⟩ :=
    Scene.installs_addWatch made context keys (.binding key)
  have owners (other : WatchId) :
      after.scene.owner? other =
        if other = made.watches.size then some key else page.scene.owner? other := by
    rw [listens, Scene.owner?_addWatch_listen, Scene.owner?_congr grows.watches]
  have newcomer : page.scene.owner? made.watches.size = none := by
    rw [← Scene.owner?_congr grows.watches, Scene.owner?, Table.get?_size]
    rfl
  have unwatched : page.watch? key = none := by
    rw [watch?, found]
    exact unwatched
  have watches (other : BindingId) :
      after.watch? other =
        if other = key then some made.watches.size else page.watch? other := by
    rw [watch?, outlooks]
    split
    · rfl
    · rfl
  refine ⟨?_, ?_, ?_, ?_, ?_⟩
  · simpa only [HasIdleScripts, scripts] using belongs.idle
  · rw [listens, installs.held, grows.held]
    exact belongs.unheld
  · rw [listens]
    exact (belongs.assigned.addWatch ofScene grows asks apart answers).sustain
      (Scene.sustains_listen _ _ _)
  · intro other watch
    rw [watches, owners]
    by_cases mine : other = key
    · by_cases new : watch = made.watches.size
      · simp [mine, new]
      · rw [if_pos mine, if_neg new, mine, ← belongs.owners key watch, unwatched]
        simp [Ne.symm new]
    · rw [if_neg mine, belongs.owners other watch]
      by_cases new : watch = made.watches.size
      · rw [if_pos new, new, newcomer]
        simp [Ne.symm mine]
      · rw [if_neg new]
  · intro other seen watch entry isSeen watching now
    rw [listens, installs.watches] at now
    rw [outlooks] at isSeen
    split at isSeen
    · cases isSeen
      cases watching
      rw [if_pos rfl] at now
      cases now
      exact observes
    · next different =>
        have owned : page.scene.owner? watch = some other :=
          (belongs.owners other watch).mp (watch?_eq_some_iff.mpr ⟨seen, isSeen, watching⟩)
        have old : watch ≠ made.watches.size := by
          rintro rfl
          cases newcomer.symm.trans owned
        rw [if_neg old, grows.watches] at now
        exact belongs.served other seen watch entry isSeen watching now

/-- When a binding ends its watch belongs to nobody, and all others keep theirs. -/
theorem Belongs.buried
    (belongs : page.Belongs)
    (dropped :
      after.scene =
        match page.watch? key with
        | none => page.scene
        | some watch => page.scene.dropWatch watch)
    (scripts : after.scripts = page.scripts)
    (outlooks :
      ∀ other, after.outlook? other =
        if other = key then (page.outlook? other).map fun outlook => { outlook with watch := none }
        else page.outlook? other) :
    after.Belongs := by
  have watches := watch?_buried outlooks
  have sheds :
      page.scene.Sustains after.scene ∧ after.scene.held = page.scene.held ∧
        ∀ watch, after.scene.owner? watch =
          if page.watch? key = some watch then none else page.scene.owner? watch := by
    cases mine : page.watch? key with
    | none =>
        rw [mine] at dropped
        have same : after.scene = page.scene := dropped
        rw [same]
        exact ⟨Scene.sustains_of_eq (fun _ => rfl) rfl, rfl, fun watch => by simp⟩
    | some lost =>
        rw [mine] at dropped
        have same : after.scene = page.scene.dropWatch lost := dropped
        rw [same]
        refine ⟨Scene.sustains_dropWatch _ _, (Scene.alters_dropWatch _ _).held, fun watch => ?_⟩
        rw [Scene.owner?_dropWatch]
        simp only [Option.some.injEq, eq_comm]
  obtain ⟨sustains, held, owners⟩ := sheds
  refine ⟨?_, by rw [held]; exact belongs.unheld, belongs.assigned.sustain sustains, ?_, ?_⟩
  · simpa only [HasIdleScripts, scripts] using belongs.idle
  · intro other watch
    rw [watches, owners]
    have mine := belongs.owners key watch
    have theirs := belongs.owners other watch
    by_cases same : other = key
    · subst same
      rw [if_pos rfl]
      split
      · simp
      · next stays =>
          rw [← theirs]
          simp [stays]
    · rw [if_neg same]
      split
      · next lost =>
          rw [theirs, mine.mp lost]
          simp [Ne.symm same]
      · exact theirs
  · intro other seen watch entry isSeen watching now
    obtain ⟨was, there, same, _⟩ := sustains.watches watch entry now
    rw [outlooks] at isSeen
    rw [same]
    split at isSeen
    · obtain ⟨earlier, _, rfl⟩ := Option.map_eq_some_iff.mp isSeen
      cases watching
    · exact belongs.served other seen watch was isSeen watching there

/-- A binding that is made leaves all others with their watches. -/
theorem Belongs.born
    {binding : Binding}
    (belongs : page.Belongs)
    (fresh : binding.IsFresh)
    (absent : page.binding? key = none)
    (scene : after.scene = page.scene)
    (scripts : after.scripts = page.scripts)
    (bindings :
      ∀ other, after.binding? other = if other = key then some binding else page.binding? other) :
    after.Belongs := by
  have watches := watch?_born fresh absent bindings
  refine ⟨?_, by rw [scene]; exact belongs.unheld, by rw [scene]; exact belongs.assigned, ?_, ?_⟩
  · simpa only [HasIdleScripts, scripts] using belongs.idle
  · intro other watch
    rw [watches, scene]
    exact belongs.owners other watch
  · intro other seen watch entry isSeen watching now
    rw [scene] at now
    rw [outlook?, bindings] at isSeen
    split at isSeen
    · cases isSeen
      cases fresh.watch.symm.trans watching
    · exact belongs.served other seen watch entry isSeen watching now

/-- Whatever a plain call does, bindings have the watches that belong to them. -/
theorem Belongs.turn
    {call : Call}
    (belongs : page.Belongs)
    (tracks : page.scene.Tracks page.scene.Watched)
    (ofScene : ∀ key outlook, page.outlook? key = some outlook → outlook.IsOfScene)
    (turn : page.Turn after call) :
    after.Belongs := by
  cases turn with
  | aside frames | declined frames | silent _ frames | told _ _ _ frames | retired frames =>
      exact belongs.frame frames
  | refused found read result frames =>
      obtain ⟨grows, _⟩ := tracks.watch_error result
      exact (belongs.sustain grows.sustains grows.held
        fun _ => Scene.owner?_congr grows.watches).frame frames
  | watched found unwatched read result listens scripts outlooks =>
      exact belongs.watched tracks (ofScene _ _ found) found unwatched read result listens scripts
        outlooks
  | refreshed _ held changed _ watches sources =>
      obtain rfl := changed
      exact (belongs.sustain (Scene.sustains_of_eq sources watches) held
        fun _ => Scene.owner?_congr watches).frame ⟨rfl, rfl, fun _ => rfl⟩
  | replanted change changed =>
      obtain rfl := changed
      exact belongs.sustain (Scene.sustains_of_eq (fun _ => rfl) rfl) rfl
        fun _ => Scene.owner?_congr rfl
  | buried dropped scripts outlooks => exact belongs.buried dropped scripts outlooks
  | born fresh absent scene scripts bindings =>
      exact belongs.born fresh absent scene scripts bindings

end Page

end Hydration
