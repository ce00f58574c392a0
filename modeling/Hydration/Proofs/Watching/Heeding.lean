import Hydration.Proofs.Watching.Tending

/-!
# Bindings keep following their contexts

Every step of a calm page leaves all bindings following their contexts: a new
binding is started, a monitor that flipped tells its watch, a watch tells its
binding, and everything else keeps what they depend on.
-/

namespace Hydration

namespace Page

variable {page after : Page} {key : BindingId} {binding : Binding}

/-- A binding that does not have to follow its context may be changed, and a watch made for it. -/
theorem Tended.replace
    (tended : page.Tended fun other => other = key)
    (scripts : after.scripts = page.scripts)
    (stack : after.stack = page.stack)
    (sound : after.scene.Sound)
    (spares : page.scene.Spares after.scene)
    (values :
      ∀ watch entry, page.scene.watches.get? watch = some entry →
        after.scene.watchValue watch = page.scene.watchValue watch)
    (others : ∀ other, other ≠ key → after.binding? other = page.binding? other)
    (now : after.binding? key = some binding)
    (living : binding.phase ≠ .destroyed)
    (served :
      ∀ watch, binding.watch = some watch →
        ∃ entry, after.scene.watches.get? watch = some entry ∧
          entry.audience = some (.binding key) ∧
          ∀ context, binding.context = .ok context →
            List.Forall₂ (after.scene.Serves binding.hooks.factories binding.element)
              context.conditions entry.monitors)
    (audience :
      ∀ watch entry, after.scene.watches.get? watch = some entry →
        (page.scene.watches.get? watch = some entry ∧ entry.audience ≠ some (.binding key)) ∨
          (entry.audience = some (.binding key) ∧ binding.watch = some watch)) :
    after.Tended fun other => other = key := by
  refine ⟨?_, ?_, sound, ?_, ?_, ?_, ?_, ?_⟩
  · simpa only [HasCalmScripts, scripts] using tended.scripts
  · rw [stack]
    exact tended.calls
  · intro watch entry there
    rcases audience watch entry there with ⟨before, foreign⟩ | ⟨own, watched⟩
    · obtain ⟨other, earlier, told, found, watched⟩ := tended.audience watch entry before
      have different : other ≠ key := by
        rintro rfl
        exact foreign told
      exact ⟨other, earlier, told, by rwa [others other different], watched⟩
    · exact ⟨key, binding, own, now, watched⟩
  · intro other found here
    by_cases same : other = key
    · subst same
      cases now.symm.trans here
      exact living
    · rw [others other same] at here
      exact tended.living other found here
  · intro other found watch here watched
    by_cases same : other = key
    · subst same
      cases now.symm.trans here
      exact served watch watched
    · rw [others other same] at here
      obtain ⟨entry, there, told, serves⟩ := tended.served other found watch here watched
      exact ⟨entry, spares.watches watch entry there, told,
        fun context read => spares.serves (serves context read)⟩
  · intro other found here tight
    rw [others other tight] at here
    exact tended.unwatched other found here tight
  · intro other found watch entry here tight watched there
    rw [others other tight] at here
    obtain ⟨known, before, _⟩ := tended.served other found watch here watched
    cases (spares.watches watch known before).symm.trans there
    refine (tended.heeded other found watch entry here tight watched before).imp ?_ ?_
    · intro heeded
      exact heeded.trans (values watch entry before).symm
    · rintro ⟨monitors, member, monitor, among, mine, follows⟩
      exact ⟨monitors, by rwa [stack], monitor, among, mine, spares.follows follows⟩

/-- A binding that is wanted as its watch says follows its context. -/
theorem Tended.heed
    {watch : WatchId}
    (tended : page.Tended fun other => other = key)
    (found : page.binding? key = some binding)
    (watched : binding.watch = some watch) :
    (page.setWanted key (page.scene.watchValue watch)).Tended fun _ => False := by
  have now : (page.setWanted key (page.scene.watchValue watch)).binding? key =
      some { binding with wanted := page.scene.watchValue watch } := by
    rw [setWanted, binding?_changeBinding, if_pos rfl, found, Option.map_some]
  have rewished :
      (page.setWanted key (page.scene.watchValue watch)).Tended fun other => other = key := by
    refine tended.replace rfl rfl tended.sound (Scene.Grows.refl _).spares (fun _ _ _ => rfl) ?_
      now (tended.living key binding found) ?_ ?_
    · intro other different
      rw [setWanted, binding?_changeBinding, if_neg different]
    · intro own isOwn
      exact tended.served key binding own found isOwn
    · intro other entry there
      obtain ⟨told, earlier, audience, isThere, watches⟩ := tended.audience other entry there
      by_cases same : told = key
      · subst same
        cases found.symm.trans isThere
        exact .inr ⟨audience, watches⟩
      · refine .inl ⟨there, ?_⟩
        rw [audience]
        simpa using same
  refine rewished.tighten now ?_ ?_
  · intro unwatched
    cases watched.symm.trans unwatched
  · intro own isOwn
    cases watched.symm.trans isOwn
    rfl

/-- What a watch tells its binding makes the binding follow its context. -/
theorem Tended.obey
    {watch : WatchId}
    (tended : page.Tended fun other => other = key)
    (found : page.binding? key = some binding)
    (watched : binding.watch = some watch) :
    (page.obey (if page.scene.watchValue watch then .mount else .unmount) key).Tended
      fun _ => False := by
  have heeded := tended.heed found watched
  have living := tended.living key binding found
  cases value : page.scene.watchValue watch with
  | true =>
      rw [value] at heeded
      exact heeded.keep (.mount found living)
  | false =>
      rw [value] at heeded
      exact heeded.keep (.unmount found living)

/-- A binding that is made does not follow its context yet. -/
theorem Tended.add
    (tended : page.Tended fun _ => False)
    (fresh : binding.IsFresh) :
    (page.addBinding binding).Tended fun other => other = page.bindings.size := by
  have absent : page.binding? page.bindings.size = none := Table.get?_size _
  refine (tended.mono fun _ never => never.elim).replace rfl rfl tended.sound
    (Scene.Grows.refl _).spares (fun _ _ _ => rfl) ?_
    ((page.binding?_addBinding binding _).trans (if_pos rfl)) ?_ ?_ ?_
  · intro other different
    rw [binding?_addBinding, if_neg different]
  · rw [fresh.phase]
    simp
  · intro watch watched
    cases fresh.watch.symm.trans watched
  · intro watch entry there
    obtain ⟨told, earlier, audience, isThere, _⟩ := tended.audience watch entry there
    refine .inl ⟨there, ?_⟩
    rw [audience]
    rintro same
    cases same
    cases absent.symm.trans isThere

section Start

variable {context : Context} {scene : Scene} {watch : WatchId} {fault : ContextFault}

/-- A binding that has been given a watch needs only to be wanted as the watch says. -/
theorem Tended.give
    (tended : page.Tended fun other => other = key)
    (found : page.binding? key = some binding)
    (fresh : binding.IsFresh)
    (read : binding.context = .ok context)
    (result :
      page.scene.watch page.pinned binding.hooks.factories binding.element context =
        (scene, .ok watch)) :
    (page.giveWatch key scene watch).Tended fun other => other = key := by
  obtain ⟨sound, spares, others, values, entry, there, audience, serves⟩ :=
    tended.sound.watch_ok result (.binding key)
  have now : (page.giveWatch key scene watch).binding? key =
      some { binding with watch := some watch } := by
    rw [binding?_giveWatch, if_pos rfl, found, Option.map_some]
  refine tended.replace rfl rfl sound spares values ?_ now
    (tended.living key binding found) ?_ ?_
  · intro other different
    rw [binding?_giveWatch, if_neg different]
  · intro own isOwn
    cases isOwn
    refine ⟨entry, there, audience, ?_⟩
    intro known same
    cases read.symm.trans same
    exact serves
  · intro other known isThere
    by_cases same : other = watch
    · subst same
      cases there.symm.trans isThere
      exact .inr ⟨audience, rfl⟩
    · have before : page.scene.watches.get? other = some known :=
        (others other same).symm.trans isThere
      refine .inl ⟨before, ?_⟩
      intro mine
      obtain ⟨told, earlier, tells, isEarlier, watches⟩ := tended.audience other known before
      cases tells.symm.trans mine
      cases found.symm.trans isEarlier
      cases fresh.watch.symm.trans watches

/-- A binding whose context cannot be watched asks for more than can be watched. -/
theorem Tended.refuse
    (tended : page.Tended fun other => other = key)
    (found : page.binding? key = some binding)
    (fresh : binding.IsFresh)
    (read : binding.context = .ok context)
    (result :
      page.scene.watch page.pinned binding.hooks.factories binding.element context =
        (scene, .error fault)) :
    { page with scene }.Tended fun _ => False := by
  obtain ⟨grows, sound, condition, member, unknown⟩ := tended.sound.watch_error result
  have grown : ({ page with scene }.push []).Tended fun other => other = key := by
    refine tended.change sound grows.spares grows.watches (by simp) ?_
    intro watch entry there
    exact .inl (tended.sound.watchValue_grows grows there)
  refine Tended.tighten grown found ?_ ?_
  · rintro _ other ⟨same, known⟩
    cases read.symm.trans same
    have asked := known condition member
    rw [unknown] at asked
    cases asked
  · intro watch watched
    cases fresh.watch.symm.trans watched

/-- A binding that is started follows its context, or it is told to. -/
theorem Tended.start
    (tended : page.Tended fun other => other = key)
    (found : page.binding? key = some binding)
    (fresh : binding.IsFresh) :
    (page.start key).IsTended := by
  have starts := page.starts key
  generalize page.start key = after at starts ⊢
  cases starts with
  | late done => simpa [fresh.phase, fresh.watch] using done binding found
  | unread there _ _ unread =>
      cases found.symm.trans there
      refine .settled ((tended.tighten found ?_ ?_).keep (.of_works (.report page key _)))
      · rintro _ context ⟨read, _⟩
        cases unread.symm.trans read
      · intro watch watched
        cases fresh.watch.symm.trans watched
  | refused there _ _ read refused =>
      cases found.symm.trans there
      exact .settled ((tended.refuse found fresh read refused).keep (.of_works (.report _ key _)))
  | @watched _ context scene watch there _ _ read result =>
      cases found.symm.trans there
      have given := tended.give found fresh read result
      have now : (page.giveWatch key scene watch).binding? key =
          some { binding with watch := some watch } := by
        rw [binding?_giveWatch, if_pos rfl, found, Option.map_some]
      split
      · next holds =>
          have telling := IsTended.telling given now rfl
          rwa [if_pos holds] at telling
      · next fails =>
          refine .settled (given.tighten now ?_ ?_)
          · intro unwatched
            cases unwatched
          · intro own isOwn
            cases isOwn
            rw [Bool.not_eq_true] at fails
            exact fresh.wanted.trans fails.symm

end Start

/-- Whether the listener of a monitor is a watch that tells a binding its value. -/
def TellsBinding (page : Page) (monitor : MonitorId) (key : BindingId) : Prop :=
  ∃ watch entry, page.scene.listener? monitor = some (.watch watch) ∧
    page.scene.watches.get? watch = some entry ∧ entry.audience = some (.binding key)

/-- When a monitor is about to tell its listener, only the binding behind that may lag. -/
theorem Tended.advance
    {monitor : MonitorId}
    {others : List MonitorId}
    {rest : List Call}
    (tended : page.Tended fun _ => False)
    (stack : page.stack = .deliver (monitor :: others) :: rest) :
    ({ page with stack := rest }.push [.deliver others]).Tended (page.TellsBinding monitor) := by
  refine ⟨tended.scripts, ?_, tended.sound, tended.audience, tended.living, tended.served, ?_, ?_⟩
  · intro call member
    rcases List.mem_cons.mp member with rfl | outer
    · rfl
    · exact tended.calls call (by rw [stack]; exact List.mem_cons_of_mem _ outer)
  · intro key binding found _
    exact tended.unwatched key binding found id
  · intro key binding watch entry found untold watched there
    refine (tended.heeded key binding watch entry found id watched there).imp_right ?_
    rintro ⟨monitors, member, flipped, among, mine, follows⟩
    rw [stack] at member
    rcases List.mem_cons.mp member with same | outer
    · cases same
      rcases List.mem_cons.mp among with rfl | later
      · -- The monitor reports to the watch of this binding, so the binding is told.
        obtain ⟨known, isKnown, listens⟩ :=
          tended.sound.wired watch entry there (tended.sound.living watch entry there) flipped mine
        obtain ⟨monitor, isMonitor, away⟩ := follows
        cases isKnown.symm.trans isMonitor
        obtain ⟨served, isServed, audience, _⟩ := tended.served key binding watch found watched
        cases isServed.symm.trans there
        refine (untold ⟨watch, entry, ?_, there, audience⟩).elim
        rw [Scene.listener?, isKnown, Option.bind_some, listens away]
      · exact ⟨others, List.mem_cons_self, flipped, later, mine, follows⟩
    · exact ⟨monitors, List.mem_cons_of_mem _ outer, flipped, among, mine, follows⟩

/-- The binding that may lag behind a monitor is told when the listener hears of it. -/
theorem Tended.hear
    {monitor : MonitorId}
    {listener : Listener}
    {loose : BindingId → Prop}
    (tended : page.Tended loose)
    (lagging : ∀ key, loose key → page.TellsBinding monitor key)
    (listens : page.scene.listener? monitor = some listener)
    (value : Bool) :
    (page.hear listener value).IsTended := by
  cases listener with
  | host subscription script =>
      refine .settled ((tended.mono ?_).keep
        ((Keeps.record _ _).trans (.push _ (by simp [Call.isCalm]))))
      intro key isLoose
      obtain ⟨watch, entry, told, _⟩ := lagging key isLoose
      cases listens.symm.trans told
  | watch watch =>
      simp only [Page.hear]
      split
      · next absent =>
          refine .settled (tended.mono ?_)
          intro key isLoose
          obtain ⟨told, entry, same, there, _⟩ := lagging key isLoose
          cases listens.symm.trans same
          cases absent.symm.trans there
      · next entry there =>
          obtain ⟨key, binding, audience, found, watched⟩ := tended.audience watch entry there
          have alone : page.Tended fun other => other = key := by
            refine tended.mono ?_
            intro other isLoose
            obtain ⟨told, known, same, isThere, tells⟩ := lagging other isLoose
            cases listens.symm.trans same
            cases there.symm.trans isThere
            cases audience.symm.trans tells
            rfl
          have pinned : page.Keeps (page.push [.pin entry.monitors]) :=
            .push page (by simp [Call.isCalm])
          have telling := IsTended.telling (alone.keep pinned) found watched
          rw [audience]
          have holds : page.scene.watchValue watch = page.scene.allHold entry.monitors := by
            simp only [Scene.watchValue, there]
          rw [← holds]
          exact telling

/-- A monitor that flipped tells its listener, and bindings still follow their contexts. -/
theorem Tended.deliver
    {monitors : List MonitorId}
    {rest : List Call}
    (tended : page.Tended fun _ => False)
    (stack : page.stack = .deliver monitors :: rest) :
    ({ page with stack := rest }.deliver monitors).IsTended := by
  cases monitors with
  | nil => exact .settled (tended.pop stack (by simp))
  | cons monitor others =>
      have advanced := tended.advance stack
      simp only [Page.deliver]
      split
      · next silent =>
          refine .settled (advanced.mono ?_)
          rintro key ⟨watch, entry, listens, _⟩
          cases silent.symm.trans listens
      · next listener listens =>
          have pinned (page : Page) : page.Keeps (page.push [.pin [monitor]]) :=
            .push page (by simp [Call.isCalm])
          exact (advanced.keep (pinned _)).hear (fun _ => id) listens _

/-- After a change of the surroundings the watches whose value has changed are told. -/
theorem Tended.refresh
    {loose : BindingId → Prop}
    {scene : Scene}
    {flipped : List MonitorId}
    (tended : page.Tended loose)
    (refreshes : page.scene.Refreshes scene flipped) :
    (page.refresh (scene, flipped)).Tended loose := by
  refine tended.change (refreshes.sound tended.sound) refreshes.spares refreshes.watches
    (by simp [Call.isCalm]) ?_
  intro watch entry there
  by_cases same : scene.watchValue watch = page.scene.watchValue watch
  · exact .inl same
  · right
    obtain ⟨key, member, mine, follows⟩ := refreshes.reported watch entry there same
    exact ⟨flipped, List.mem_cons_self, key, member, mine, refreshes.spares.follows follows⟩

/-- Monitors do not look at the element tree. -/
theorem Tended.changeTree
    {loose : BindingId → Prop}
    (tended : page.Tended loose)
    (change : Tree → Tree) :
    { page with scene := page.scene.changeTree change }.Tended loose := by
  have sound : (page.scene.changeTree change).Sound :=
    ⟨tended.sound.toWired.changeTree change, tended.sound.living⟩
  have spares : page.scene.Spares (page.scene.changeTree change) :=
    ⟨fun _ _ found => found, fun _ monitor found => ⟨monitor, found, rfl⟩⟩
  have changed : ({ page with scene := page.scene.changeTree change }.push []).Tended loose :=
    tended.change sound spares rfl (by simp) fun _ _ _ => .inl rfl
  exact changed

/-- Each element is bound and its binding started at once. -/
theorem Tended.hydrateNext
    (tended : page.Tended fun _ => False)
    (hooks : Hooks)
    (elements : List ElementId) :
    (page.hydrateNext hooks elements).IsTended := by
  cases elements with
  | nil => exact .settled tended
  | cons element rest =>
      have keeps : page.Keeps (page.push [.hydrate hooks rest]) :=
        .push page (by simp [Call.isCalm])
      have waiting := tended.keep keeps
      simp only [Page.hydrateNext]
      split
      · exact .settled waiting
      · next label _ =>
          have fresh : (page.bindingOf hooks element label).IsFresh :=
            Binding.isFresh_fresh _ _ _ _ _
          have added := waiting.add fresh
          refine .starting (added.keep (.of_eq rfl rfl rfl rfl)) ?_ fresh
          exact (binding?_addBinding _ _ _).trans (if_pos rfl)

/-- What a calm request asks leaves bindings following their contexts. -/
theorem Tended.answer
    {request : Request}
    (tended : page.Tended fun _ => False)
    (calm : request.isCalm) :
    (page.answer request).Tended fun _ => False := by
  cases request with
  | bind | toggle | cancel | dropSubscription | dropMonitor | destroyAll => cases calm
  | drive queue => exact tended.keep (.drive page queue)
  | resize viewport => exact tended.refresh (tended.sound.resize page.pinned viewport)
  | reveal element visible =>
      exact tended.refresh (tended.sound.reveal page.pinned element visible)
  | mark => exact tended.changeTree _
  | append => exact tended.changeTree _
  | release => exact tended.keep (.of_eq rfl rfl rfl rfl)
  | hydrate root => exact tended.keep (.hydrate page root)

/-- One step leaves bindings following their contexts. -/
theorem IsTended.step (tended : page.IsTended) : page.step.IsTended := by
  cases tended with
  | starting tended found fresh => exact tended.start found fresh
  | telling tended found watched => exact .settled (tended.obey found watched)
  | settled tended =>
      cases stack : page.stack with
      | nil =>
          rw [step_of_nil stack]
          exact .settled tended
      | cons call rest =>
          have calm := tended.calls call (by rw [stack]; exact List.mem_cons_self)
          have popped := tended.pop stack
          rw [step_of_stack stack]
          by_cases inward : call.isInward
          · refine .settled ((popped ?_).keep (.carryOn tended.scripts inward))
            rintro monitor monitors rfl
            cases inward
          · cases call with
            | deliver monitors => exact tended.deliver stack
            | request request => exact .settled ((popped (by simp)).answer calm)
            | hydrate hooks elements => exact (popped (by simp)).hydrateNext hooks elements
            | retire | bury | destroyEach => cases calm
            | _ => exact (inward rfl).elim

/-- At rest no binding is left out. -/
theorem IsTended.of_rest
    (tended : page.IsTended)
    (rest : page.isAtRest) :
    page.Tended fun _ => False := by
  cases tended with
  | settled tended => exact tended
  | starting | telling => cases rest

/-- A calm move of the host leaves bindings following their contexts. -/
theorem Tended.move
    {move : Move}
    (tended : page.Tended fun _ => False)
    (calm : move.IsCalm) :
    (page.move move).Tended fun _ => False := by
  cases move with
  | scene | bind => exact calm.elim
  | ask request =>
      refine tended.keep (.push page ?_)
      intro call member
      rw [List.mem_singleton.mp member]
      exact calm
  | callback key notice script =>
      exact tended.keep (.changeBinding fun binding _ => ⟨rfl, rfl, rfl, rfl, rfl, id⟩)
  | script actions =>
      have keeps : page.Keeps (page.addScript actions) := by
        refine ⟨rfl, ?_, ⟨[], rfl, by simp⟩, fun _ binding found => ⟨binding, found, .refl _⟩,
          fun _ => id⟩
        intro scripts script member
        rcases List.mem_append.mp member with old | new
        · exact scripts script old
        · rw [List.mem_singleton.mp new]
          exact calm
      exact tended.keep keeps
  | constructor | plugin | catalog | registry => exact tended.keep (.of_eq rfl rfl rfl rfl)

end Page

end Hydration
