import Hydration.Proofs.Passive.Linked

/-!
# Bindings mind their watches

As long as nobody but watches says whether a binding is wanted, a binding that
watches its context is wanted exactly when its watch holds, unless it has ended,
is about to end, or is still to be told.  A binding without a watch is not wanted.
-/

namespace Hydration

namespace Life

variable {key : BindingId} {before after : Life} {call : Call} {rest : List Call}

/-- What is wanted of a binding does not change of itself, but for a binding that is to end. -/
theorem Carried.wanted (happened : Carried key call before after) :
    after.wanted = before.wanted ∨ call = .retire key ∧ after.wanted = false := by
  cases happened with
  | retireMounted | retire => exact .inr ⟨rfl, rfl⟩
  | remount _ wanted => exact .inl wanted.symm
  | _ => exact .inl rfl

/-- A binding minds what it is told as long as it has not ended. -/
theorem told_wanted (key : BindingId) (value : Bool) (life : Life) :
    (life.told key value).wanted = value ∨ (life.told key value).phase = .destroyed := by
  unfold told
  split
  · next ended => exact .inr ended
  · exact .inl rfl
  · cases value <;> exact .inl rfl
  · cases value <;> exact .inl rfl

end Life

namespace Page

variable
  {page after : Page} {key : BindingId} {loose : BindingId → Prop}
  {call : Call} {rest added : List Call}

/-- All bindings but the `loose` ones are wanted as their watches say, or they are to be told. -/
structure Minded (loose : BindingId → Prop) (page : Page) : Prop where
  meek : ∀ call ∈ page.stack, call.isMeek
  unwatched : ∀ key, page.watch? key = none → (page.life key).wanted = false
  bound :
    ∀ key watch entry, page.scene.watches.get? watch = some entry →
      entry.audience = some (.binding key) →
        page.watch? key = some watch ∨ (page.life key).phase = .destroyed
  minded :
    ∀ key watch entry, ¬ loose key → page.watch? key = some watch →
      page.scene.watches.get? watch = some entry →
        (page.life key).wanted = page.scene.watchValue watch ∨
          (page.life key).phase = .destroyed ∨ page.Awaits entry ∨ .bury key ∈ page.stack

/-- Whether bindings mind their watches, or the top call tells the only one that does not. -/
inductive IsMinded : Page → Prop where
  | settled
      {page : Page}
      (minded : page.Minded fun _ => False) :
      IsMinded page
  | telling
      {page : Page}
      {key : BindingId}
      {watch : WatchId}
      {rest : List Call}
      (stack :
        page.stack =
          .request (.bind (if page.scene.watchValue watch then .mount else .unmount) key) :: rest)
      (minded : ({ page with stack := rest } : Page).Minded fun other => other = key)
      (watched : page.watch? key = some watch ∨ (page.life key).phase = .destroyed) :
      IsMinded page

/-- A call that wishes nothing leaves what is wanted as it is, unless the binding retires. -/
theorem wanted_step
    (stack : page.stack = call :: rest)
    (meek : call.isMeek)
    (present : (page.life key).calls ≠ [] → (page.life key).present) :
    (page.step.life key).wanted = (page.life key).wanted ∨
      call = .retire key ∧ (page.step.life key).wanted = false := by
  by_cases own : call.isOf key
  · have busy := calls_ne_nil_of_stack stack own
    obtain ⟨_, carried⟩ := step_carried stack own (present busy)
    exact carried.wanted
  · have foreign : call.isOf key = false := by simpa using own
    have unasked : ¬ call.Wishes key := by
      rintro (rfl | rfl) <;> cases meek
    left
    rw [step_of_stack stack]
    have stance := life_stance_carryOn { page with stack := rest } foreign unasked
    rw [life_pop stack foreign] at stance
    exact congrArg Prod.snd stance

theorem present_of_destroyed (destroyed : (page.life key).phase = .destroyed) :
    (page.life key).present := by
  cases found : page.binding? key with
  | none => simp [life, found] at destroyed
  | some binding => exact (life_of_found found).1

/-- What is still to be told remains so while calls come and go that deliver nothing. -/
theorem Awaits.survive
    {entry : Watch}
    (awaits : page.Awaits entry)
    (stack : page.stack = call :: rest)
    (undelivered : ∀ monitor monitors, call ≠ .deliver (monitor :: monitors))
    (follows : ∀ monitor, page.scene.Follows monitor → after.scene.Follows monitor) :
    ({ after with stack := added ++ rest } : Page).Awaits entry := by
  obtain ⟨monitors, member, monitor, flipped, mine, isFollowing⟩ := awaits
  refine ⟨monitors, List.mem_append_right added ?_, monitor, flipped, mine,
    follows monitor isFollowing⟩
  rw [stack] at member
  refine (List.mem_cons.mp member).resolve_left ?_
  rintro rfl
  cases monitors with
  | nil => cases flipped
  | cons first others => exact undelivered first others rfl

/-- When a monitor is delivered what is still to be told remains so, or it is told now. -/
theorem Awaits.advance
    {entry : Watch}
    {monitor : MonitorId}
    {others : List MonitorId}
    (awaits : page.Awaits entry)
    (stack : page.stack = .deliver (monitor :: others) :: rest)
    (scene : after.scene = page.scene) :
    ({ after with stack := added ++ .deliver others :: rest } : Page).Awaits entry ∨
      (monitor ∈ entry.monitors ∧ page.scene.Follows monitor) := by
  obtain ⟨monitors, member, flipped, within, mine, follows⟩ := awaits
  have still : after.scene.Follows flipped := by rwa [scene]
  rw [stack] at member
  rcases List.mem_cons.mp member with same | outer
  · cases same
    rcases List.mem_cons.mp within with rfl | later
    · exact .inr ⟨mine, follows⟩
    · exact .inl ⟨others, List.mem_append_right added List.mem_cons_self, flipped, later, mine,
        still⟩
  · exact .inl ⟨monitors, List.mem_append_right added (List.mem_cons_of_mem _ outer), flipped,
      within, mine, still⟩

/-- A monitor of the watch of a binding reports to that watch. -/
theorem Linked.listener
    {watch : WatchId}
    {entry : Watch}
    {monitor : MonitorId}
    (linked : page.Linked)
    (watched : page.watch? key = some watch)
    (there : page.scene.watches.get? watch = some entry)
    (mine : monitor ∈ entry.monitors)
    (follows : page.scene.Follows monitor) :
    page.scene.listener? monitor = some (.watch watch) ∧
      entry.audience = some (.binding key) := by
  obtain ⟨outlook, found, watches⟩ := watch?_eq_some_iff.mp watched
  obtain ⟨known, isKnown, living, audience, _⟩ := linked.served key outlook watch found watches
  cases there.symm.trans isKnown
  obtain ⟨now, isNow, listens⟩ := linked.wired.wired watch entry there living monitor mine
  obtain ⟨same, isSame, away⟩ := follows
  cases isNow.symm.trans isSame
  exact ⟨by rw [Scene.listener?, isNow, Option.bind_some, listens away], audience⟩

/-- A page on which bindings mind their watches, about to carry on with its top call. -/
structure Minding (page : Page) (call : Call) (rest : List Call) : Prop where
  minded : page.Minded fun _ => False
  linked : page.Linked
  present : ∀ key, (page.life key).calls ≠ [] → (page.life key).present
  planned : ∀ key, (page.life key).Planned key
  stack : page.stack = call :: rest

namespace Minding

theorem meek (minding : page.Minding call rest) : call.isMeek :=
  minding.minded.meek call (by rw [minding.stack]; exact List.mem_cons_self)

theorem plain (minding : page.Minding call rest) : ∀ call ∈ page.stack, call.isPlain :=
  fun call member => Call.isPlain_of_isMeek (minding.minded.meek call member)

theorem wanted (minding : page.Minding call rest) (key : BindingId) :
    (page.step.life key).wanted = (page.life key).wanted ∨
      call = .retire key ∧ (page.step.life key).wanted = false :=
  wanted_step minding.stack minding.meek (minding.present key)

theorem destroyed
    (minding : page.Minding call rest)
    (ended : (page.life key).phase = .destroyed) :
    (page.step.life key).phase = .destroyed :=
  destroyed_step (present_of_destroyed ended) (minding.planned key) ended

/-- A watch that tells a binding is the one of the binding, unless the binding has ended. -/
theorem bound
    {watch : WatchId}
    {entry : Watch}
    (minding : page.Minding call rest)
    (watches : page.step.watch? key = page.watch? key)
    (there : page.scene.watches.get? watch = some entry)
    (audience : entry.audience = some (.binding key)) :
    page.step.watch? key = some watch ∨ (page.step.life key).phase = .destroyed :=
  (minding.minded.bound key watch entry there audience).imp watches.trans minding.destroyed

/-- What was put on the stack is there already. -/
theorem settled
    (added : List Call)
    (pushed : page.step.stack = added ++ rest)
    (minded : ({ page.step with stack := added ++ rest } : Page).Minded fun _ => False) :
    page.step.IsMinded := by
  rw [← pushed] at minded
  exact .settled minded

/--
A step that wishes nothing keeps what bindings mind, as far as their watches keep
their values or are to tell them.
-/
theorem carry
    (minding : page.Minding call rest)
    (added : List Call)
    (meek : ∀ call ∈ added, call.isMeek)
    (retires : ∀ key, call = .retire key → .bury key ∈ added)
    (unwatched :
      ∀ key, page.step.watch? key = none →
        page.watch? key = none ∨ (page.life key).wanted = false)
    (bound :
      ∀ key watch entry, page.step.scene.watches.get? watch = some entry →
        entry.audience = some (.binding key) →
          page.step.watch? key = some watch ∨ (page.step.life key).phase = .destroyed)
    (minds :
      ∀ key watch entry, ¬ loose key → page.step.watch? key = some watch →
        page.step.scene.watches.get? watch = some entry →
          (page.step.life key).wanted = page.step.scene.watchValue watch ∨
            ({ page.step with stack := added ++ rest } : Page).Awaits entry ∨
            (call ≠ .bury key ∧ page.watch? key = some watch ∧
              page.scene.watches.get? watch = some entry ∧
              page.step.scene.watchValue watch = page.scene.watchValue watch ∧
              (page.Awaits entry →
                ({ page.step with stack := added ++ rest } : Page).Awaits entry))) :
    ({ page.step with stack := added ++ rest } : Page).Minded loose := by
  have minded := minding.minded
  have stack := minding.stack
  refine ⟨?_, ?_, bound, ?_⟩
  · intro call member
    refine (List.mem_append.mp member).elim (meek call) fun outer => ?_
    exact minded.meek call (by rw [stack]; exact List.mem_cons_of_mem _ outer)
  · intro key unwatches
    rcases minding.wanted key with same | ⟨_, unwanted⟩
    · exact same.trans ((unwatched key unwatches).elim (minded.unwatched key) id)
    · exact unwanted
  · intro key watch entry tight watches there
    rcases minds key watch entry tight watches there with
      holds | awaits | ⟨unburied, watched, was, value, still⟩
    · exact .inl holds
    · exact .inr (.inr (.inl awaits))
    · rcases minded.minded key watch entry id watched was with
        holds | ended | awaits | doomed
      · rcases minding.wanted key with same | ⟨retiring, _⟩
        · exact .inl (same.trans (holds.trans value.symm))
        · exact .inr (.inr (.inr (List.mem_append_left rest (retires key retiring))))
      · exact .inr (.inl (minding.destroyed ended))
      · exact .inr (.inr (.inl (still awaits)))
      · rw [stack] at doomed
        exact .inr (.inr (.inr (List.mem_append_right added
          ((List.mem_cons.mp doomed).resolve_left (Ne.symm unburied)))))

end Minding

/-- A binding that is told the value of its watch minds it, unless it has ended. -/
theorem Minded.obey
    {watch : WatchId}
    (minded : page.Minded fun other => other = key)
    (watched : page.watch? key = some watch ∨ (page.life key).phase = .destroyed) :
    (page.obey (if page.scene.watchValue watch then .mount else .unmount) key).Minded
      fun _ => False := by
  have present : (page.life key).present := by
    rcases watched with watches | destroyed
    · obtain ⟨outlook, found, _⟩ := watch?_eq_some_iff.mp watches
      exact present_of_outlook found
    · exact present_of_destroyed destroyed
  obtain ⟨binding, found⟩ := Option.isSome_iff_exists.mp present
  have confined := Confined.obey page key (page.scene.watchValue watch)
  have told := life_obey_told found (page.scene.watchValue watch)
  have ended (destroyed : (page.life key).phase = .destroyed) :
      ((page.life key).told key (page.scene.watchValue watch)) = page.life key := by
    simp [Life.told, destroyed]
  have others {other : BindingId} (different : other ≠ key) :=
    life_obey_other page (page.scene.watchValue watch) (Ne.symm different)
  generalize page.obey _ key = obeyed at confined told others ⊢
  obtain ⟨added, stack, owned, _⟩ := confined.stack
  refine ⟨?_, ?_, ?_, ?_⟩
  · intro call member
    rw [stack] at member
    exact (List.mem_append.mp member).elim
      (fun own => Call.isMeek_of_subject? (owned call own).1) (minded.meek call)
  · intro other unwatched
    rw [confined.watch?] at unwatched
    by_cases own : other = key
    · subst own
      have destroyed := watched.resolve_left (by simp [unwatched])
      rw [told, ended destroyed]
      exact minded.unwatched other unwatched
    · rw [others own]
      exact minded.unwatched other unwatched
  · intro other mine entry there audience
    rw [confined.scene] at there
    rw [confined.watch?]
    refine (minded.bound other mine entry there audience).imp_right fun destroyed => ?_
    by_cases own : other = key
    · subst own
      rwa [told, ended destroyed]
    · rwa [others own]
  · intro other mine entry _ watches there
    rw [confined.watch?] at watches
    rw [confined.scene] at there ⊢
    by_cases own : other = key
    · subst own
      rcases watched with watched | destroyed
      · cases watched.symm.trans watches
        rw [told]
        exact (Life.told_wanted _ _ _).imp_right .inl
      · refine .inr (.inl ?_)
        rwa [told, ended destroyed]
    · rw [others own]
      refine (minded.minded other mine entry own watches there).imp_right
        (.imp_right (.imp ?_ ?_))
      · rintro ⟨monitors, member, flipped⟩
        exact ⟨monitors, by rw [stack]; exact List.mem_append_right added member,
          by rwa [confined.scene]⟩
      · intro doomed
        rw [stack]
        exact List.mem_append_right added doomed

namespace Minding

/-- What leaves the surroundings alone leaves bindings minding their watches. -/
theorem framed
    (minding : page.Minding call rest)
    (frames : ({ page with stack := rest } : Page).Frames page.step)
    (meek : ∀ call ∈ added, call.isMeek)
    (unburied : ∀ key, call ≠ .bury key)
    (retires : ∀ key, call = .retire key → .bury key ∈ added)
    (awaits :
      ∀ key watch entry, ¬ loose key → page.watch? key = some watch →
        page.scene.watches.get? watch = some entry → page.Awaits entry →
          ({ page.step with stack := added ++ rest } : Page).Awaits entry) :
    ({ page.step with stack := added ++ rest } : Page).Minded loose := by
  have scene : page.step.scene = page.scene := frames.scene
  have watches (key : BindingId) : page.step.watch? key = page.watch? key := frames.watch? key
  refine minding.carry _ meek retires ?_ ?_ ?_
  · intro key unwatched
    exact .inl ((watches key).symm.trans unwatched)
  · intro key mine entry there audience
    rw [scene] at there
    exact minding.bound (watches key) there audience
  · intro key mine entry tight watched there
    rw [watches] at watched
    rw [scene] at there ⊢
    exact .inr (.inr ⟨unburied key, watched, there, rfl,
      awaits key mine entry tight watched there⟩)

/-- A call that steers nothing but the end of a binding leaves bindings minding their watches. -/
theorem undelivered
    (minding : page.Minding call rest)
    (frames : ({ page with stack := rest } : Page).Frames page.step)
    (meek : ∀ call ∈ added, call.isMeek)
    (undelivered : ∀ monitor monitors, call ≠ .deliver (monitor :: monitors))
    (unburied : ∀ key, call ≠ .bury key)
    (retires : ∀ key, call = .retire key → .bury key ∈ added) :
    ({ page.step with stack := added ++ rest } : Page).Minded loose := by
  have scene : page.step.scene = page.scene := frames.scene
  refine minding.framed frames meek unburied retires ?_
  intro key watch entry _ _ _ awaits
  exact awaits.survive minding.stack undelivered fun monitor follows => by rwa [scene]

/-- When a monitor is delivered, bindings mind their watches but for those that it tells. -/
theorem delivered
    {monitor : MonitorId}
    {others : List MonitorId}
    (minding : page.Minding (.deliver (monitor :: others)) rest)
    (frames : ({ page with stack := rest } : Page).Frames page.step)
    (meek : ∀ call ∈ added, call.isMeek)
    (tells :
      ∀ watch entry key, page.scene.listener? monitor = some (.watch watch) →
        page.scene.watches.get? watch = some entry → entry.audience = some (.binding key) →
          loose key) :
    ({ page.step with stack := added ++ .deliver others :: rest } : Page).Minded loose := by
  have meekly : ∀ call ∈ added ++ [.deliver others], call.isMeek := by
    intro call member
    rcases List.mem_append.mp member with old | new
    · exact meek call old
    · rw [List.mem_singleton.mp new]
      rfl
  rw [← List.singleton_append, ← List.append_assoc]
  refine minding.framed frames meekly (by simp) (by simp) ?_
  intro key watch entry tight watched there awaits
  rw [List.append_assoc]
  refine (awaits.advance minding.stack frames.scene).resolve_right ?_
  rintro ⟨mine, follows⟩
  obtain ⟨listens, audience⟩ := minding.linked.listener watched there mine follows
  exact tight (tells watch entry key listens there audience)

/-- What changes the scene but no watch leaves those minded that keep their value or are told. -/
theorem rescened
    {request : Request}
    (minding : page.Minding (.request request) rest)
    (added : List Call)
    (outlooks : ∀ key, page.step.outlook? key = page.outlook? key)
    (watches : page.step.scene.watches = page.scene.watches)
    (meek : ∀ call ∈ added, call.isMeek)
    (follows : ∀ monitor, page.scene.Follows monitor → page.step.scene.Follows monitor)
    (told :
      ∀ key watch entry, page.watch? key = some watch →
        page.scene.watches.get? watch = some entry →
          page.step.scene.watchValue watch = page.scene.watchValue watch ∨
            ({ page.step with stack := added ++ rest } : Page).Awaits entry) :
    ({ page.step with stack := added ++ rest } : Page).Minded fun _ => False := by
  have watch (key : BindingId) : page.step.watch? key = page.watch? key := by
    simp only [watch?, outlooks]
  refine minding.carry _ meek (by simp) ?_ ?_ ?_
  · intro key unwatched
    exact .inl ((watch key).symm.trans unwatched)
  · intro key mine entry there audience
    rw [watches] at there
    exact minding.bound (watch key) there audience
  · intro key mine entry _ watched there
    rw [watch] at watched
    rw [watches] at there
    rcases told key mine entry watched there with value | awaits
    · exact .inr (.inr ⟨by simp, watched, there, value,
        fun awaits => awaits.survive minding.stack (by simp) follows⟩)
    · exact .inr (.inl awaits)

variable {outlook : Outlook} {context : Context} {scene : Scene} {watch : WatchId}

/-- A watch that cannot be made leaves all others as they are. -/
theorem refused
    {pinned : List MonitorId}
    {fault : ContextFault}
    (minding : page.Minding (.request (.bind .start key)) rest)
    (result :
      page.scene.watch pinned outlook.hooks.factories outlook.element context =
        (scene, .error fault))
    (frames : ({ page with scene, stack := rest } : Page).Frames page.step)
    (meek : ∀ call ∈ added, call.isMeek) :
    ({ page.step with stack := added ++ rest } : Page).Minded fun _ => False := by
  obtain ⟨grows, _⟩ := minding.linked.wired.watch_error result
  have same : page.step.scene = scene := frames.scene
  refine minding.rescened _ frames.outlook (by rw [same]; exact grows.watches) meek ?_ ?_
  · intro monitor follows
    rw [same]
    exact grows.spares.follows follows
  · intro other watch entry watched there
    obtain ⟨seen, isSeen, watches⟩ := watch?_eq_some_iff.mp watched
    obtain ⟨known, isKnown, living, _⟩ := minding.linked.served other seen watch isSeen watches
    left
    rw [same]
    exact minding.linked.wired.watchValue_grows grows isKnown living

/-- When the surroundings change, those bindings are to be told whose watches change their value. -/
theorem refreshed
    {request : Request}
    {flipped : List MonitorId}
    (minding : page.Minding (.request request) rest)
    (refreshes : page.scene.Refreshes scene flipped)
    (changed : page.step = ({ page with stack := rest } : Page).refresh (scene, flipped)) :
    ({ page.step with stack := [.deliver flipped] ++ rest } : Page).Minded fun _ => False := by
  have same : page.step.scene = scene := by
    rw [changed]
    rfl
  have follows (monitor : MonitorId) (following : page.scene.Follows monitor) :
      page.step.scene.Follows monitor := by
    rw [same]
    exact refreshes.spares.follows following
  refine minding.rescened _ (fun key => by rw [changed]; rfl)
    (by rw [same]; exact refreshes.watches) (by simp [Call.isMeek]) follows ?_
  intro key watch entry _ there
  by_cases value : scene.watchValue watch = page.scene.watchValue watch
  · left
    rw [same]
    exact value
  · obtain ⟨monitor, member, mine, following⟩ := refreshes.reported watch entry there value
    exact .inr ⟨flipped, List.mem_cons_self, monitor, member, mine, follows monitor following⟩

/-- A binding that is given a watch minds it if the watch does not hold, and else it is loose. -/
theorem watched
    {pinned : List MonitorId}
    (minding : page.Minding (.request (.bind .start key)) rest)
    (found : page.outlook? key = some outlook)
    (unwatched : outlook.watch = none)
    (result :
      page.scene.watch pinned outlook.hooks.factories outlook.element context = (scene, .ok watch))
    (listens : page.step.scene = scene.listen watch (.binding key))
    (outlooks :
      ∀ other, page.step.outlook? other =
        if other = key then some { outlook with watch := some watch } else page.outlook? other)
    (fails : loose key ∨ page.step.scene.watchValue watch = false) :
    page.step.watch? key = some watch ∧
      ({ page.step with stack := rest } : Page).Minded loose := by
  obtain ⟨_, spares, _, others, values, entry, there, _, audience, _⟩ :=
    minding.linked.wired.watch_ok result (.binding key)
  rw [← listens] at spares others values there
  have mine : page.step.watch? key = some watch :=
    watch?_eq_some_iff.mpr ⟨_, (outlooks key).trans (if_pos rfl), rfl⟩
  have nothing : page.watch? key = none := by
    simp [watch?, found, unwatched]
  have watches (other : BindingId) (different : other ≠ key) :
      page.step.watch? other = page.watch? other := by
    simp only [watch?, outlooks, if_neg different]
  refine ⟨mine, minding.carry [] (by simp) (by simp) ?_ ?_ ?_⟩
  · intro other unwatches
    have different : other ≠ key := by
      rintro rfl
      cases mine.symm.trans unwatches
    exact .inl ((watches other different).symm.trans unwatches)
  · intro other known entryOf isThere tells
    by_cases same : known = watch
    · subst same
      cases there.symm.trans isThere
      cases audience.symm.trans tells
      exact .inl mine
    · rw [others known same] at isThere
      by_cases own : other = key
      · subst own
        refine .inr (minding.destroyed ?_)
        exact (minding.minded.bound other known entryOf isThere tells).resolve_left
          (by simp [nothing])
      · exact minding.bound (watches other own) isThere tells
  · intro other known entryOf tight watching isThere
    by_cases own : other = key
    · subst own
      cases mine.symm.trans watching
      left
      rw [fails.resolve_left tight]
      rcases minding.wanted other with same | ⟨_, unwanted⟩
      · exact same.trans (minding.minded.unwatched other nothing)
      · exact unwanted
    · rw [watches other own] at watching
      obtain ⟨seen, isSeen, watchesIt⟩ := watch?_eq_some_iff.mp watching
      obtain ⟨before, was, living, _⟩ := minding.linked.served other seen known isSeen watchesIt
      cases (spares.watches known before was).symm.trans isThere
      exact .inr (.inr ⟨by simp, watching, was, values known _ was living,
        fun awaits => awaits.survive minding.stack (by simp) fun _ => spares.follows⟩)

/-- A binding that ends has no watch to mind any more, and all others mind theirs as before. -/
theorem buried
    (minding : page.Minding (.bury key) rest)
    (dropped :
      page.step.scene =
        match page.watch? key with
        | none => page.scene
        | some watch => page.scene.dropWatch watch)
    (outlooks :
      ∀ other, page.step.outlook? other =
        if other = key then (page.outlook? other).map fun outlook => { outlook with watch := none }
        else page.outlook? other)
    (meek : ∀ call ∈ added, call.isMeek) :
    ({ page.step with stack := added ++ rest } : Page).Minded fun _ => False := by
  have sheds := minding.linked.sheds dropped
  have watches := watch?_buried outlooks
  have own : (Call.bury key).isOf key := decide_eq_true rfl
  have busy := calls_ne_nil_of_stack minding.stack own
  obtain ⟨calls, carried⟩ := step_carried minding.stack own (minding.present key busy)
  refine minding.carry _ meek (by simp) ?_ ?_ ?_
  · intro other unwatches
    by_cases own : other = key
    · subst own
      exact .inr ((minding.planned other).unwanted_of_leaves calls rfl)
    · rw [watches, if_neg own] at unwatches
      exact .inl unwatches
  · intro other watch entry there audience
    by_cases own : other = key
    · subst own
      exact .inr carried.destroyed_of_bury
    · obtain ⟨was, isWas, tells⟩ := sheds.audience there
      exact minding.bound ((watches other).trans (if_neg own)) isWas (tells.trans audience)
  · intro other watch entry _ watching there
    rw [watches] at watching
    split at watching
    · cases watching
    · next different =>
        have stays : page.watch? key ≠ some watch :=
          fun lost => different (minding.linked.watch?_inj lost watching)
        rw [sheds.others watch stays] at there
        refine .inr (.inr ⟨by simpa using Ne.symm different, watching, there,
          sheds.values watch stays, fun awaits => awaits.survive minding.stack (by simp) ?_⟩)
        exact fun monitor => Scene.Keeps.follows (sheds.sources monitor)

/-- A binding that is made has no watch yet. -/
theorem born
    {hooks : Hooks}
    {elements : List ElementId}
    {binding : Binding}
    (minding : page.Minding (.hydrate hooks elements) rest)
    (fresh : binding.IsFresh)
    (absent : page.binding? key = none)
    (scene : page.step.scene = page.scene)
    (bindings :
      ∀ other, page.step.binding? other =
        if other = key then some binding else page.binding? other)
    (meek : ∀ call ∈ added, call.isMeek) :
    ({ page.step with stack := added ++ rest } : Page).Minded fun _ => False := by
  have watches := watch?_born fresh absent bindings
  refine minding.carry _ meek (by simp) ?_ ?_ ?_
  · intro other unwatched
    exact .inl ((watches other).symm.trans unwatched)
  · intro other watch entry there audience
    rw [scene] at there
    exact minding.bound (watches other) there audience
  · intro other watch entry _ watching there
    rw [watches] at watching
    rw [scene] at there ⊢
    refine .inr (.inr ⟨by simp, watching, there, rfl, fun awaits => ?_⟩)
    exact awaits.survive minding.stack (by simp) fun monitor follows => by rwa [scene]

/-- A step that wishes nothing leaves bindings minding their watches, or one is to be told. -/
theorem step (minding : page.Minding call rest) : page.step.IsMinded := by
  have turn := turn_step minding.linked.idle minding.plain minding.stack
  cases turn with
  | aside frames gentle added pushed meek =>
      refine settled _ pushed (minding.undelivered frames meek ?_ ?_ ?_)
      · rintro monitor monitors rfl
        cases gentle
      · rintro key rfl
        cases gentle
      · rintro key rfl
        cases gentle
  | declined frames _ added pushed meek =>
      exact settled _ pushed (minding.undelivered frames meek (by simp) (by simp) (by simp))
  | @retired key frames added pushed meek =>
      have pushed : page.step.stack = (added ++ [.bury key]) ++ rest := by
        rw [pushed, List.append_assoc]
        rfl
      refine settled _ pushed (minding.undelivered frames ?_ (by simp) (by simp) (by simp))
      intro call member
      rcases List.mem_append.mp member with old | new
      · exact meek call old
      · rw [List.mem_singleton.mp new]
        rfl
  | @silent monitor others untold frames added pushed meek =>
      have minds : ({ page.step with stack := added ++ .deliver others :: rest } : Page).Minded
          fun _ => False :=
        minding.delivered frames meek untold
      rw [← pushed] at minds
      exact .settled minds
  | @told monitor others watch entry key listens there audience frames pins meek pushed =>
      have scene : page.step.scene = page.scene := frames.scene
      refine .telling (by rw [scene]; exact pushed) (minding.delivered frames meek ?_) ?_
      · intro other known told hears isThere tells
        cases listens.symm.trans hears
        cases there.symm.trans isThere
        cases audience.symm.trans tells
        rfl
      · exact minding.bound (frames.watch? key) there audience
  | refused found read result frames added pushed meek =>
      exact settled _ pushed (minding.refused result frames meek)
  | @watched key outlook context scene watch found unwatched _ result listens _ outlooks pushed =>
      have gives {loose : BindingId → Prop}
          (fails : loose key ∨ page.step.scene.watchValue watch = false) :=
        minding.watched found unwatched result listens outlooks fails
      cases value : page.step.scene.watchValue watch with
      | true =>
          obtain ⟨mine, loosely⟩ := @gives (fun other => other = key) (.inl rfl)
          rw [value] at pushed
          exact .telling (by rw [value]; exact pushed) loosely (.inl mine)
      | false =>
          obtain ⟨_, minds⟩ := gives (.inr value)
          rw [value] at pushed
          exact settled [] pushed minds
  | refreshed refreshes _ changed =>
      exact settled [_] (by rw [changed]; rfl)
        (minding.refreshed (refreshes minding.linked.wired) changed)
  | @replanted request change changed =>
      have same : page.step.scene = page.scene.changeTree change := by rw [changed]
      refine settled [] (by rw [changed]; rfl)
        (minding.rescened _ (fun key => by rw [changed]; rfl) (by rw [same]; rfl) (by simp) ?_ ?_)
      · intro monitor follows
        rw [same]
        exact follows
      · intro key watch entry _ there
        rw [same]
        exact .inl rfl
  | buried dropped _ outlooks pushed =>
      exact settled _ pushed (minding.buried dropped outlooks (by simp [Call.isMeek]))
  | @born hooks _ elements key _ fresh absent scene _ bindings pushed =>
      refine settled [.request (.bind .start key), .hydrate hooks elements] pushed
        (minding.born fresh absent scene bindings ?_)
      simp [Call.isMeek, Request.isPlain, Request.isWish]

end Minding

/-- Whatever is under way, bindings mind their watches or one of them is told its value. -/
theorem IsMinded.step
    (isMinded : page.IsMinded)
    (linked : page.Linked)
    (present : ∀ key, (page.life key).calls ≠ [] → (page.life key).present)
    (planned : ∀ key, (page.life key).Planned key) :
    page.step.IsMinded := by
  cases isMinded with
  | settled minded =>
      cases stack : page.stack with
      | nil =>
          rw [step_of_nil stack]
          exact .settled minded
      | cons call rest =>
          exact Minding.step ⟨minded, linked, present, planned, stack⟩
  | telling stack minded watched =>
      rw [step_of_stack stack]
      exact .settled (minded.obey watched)

/-- At rest no binding is left out. -/
theorem IsMinded.of_rest
    (isMinded : page.IsMinded)
    (rest : page.isAtRest) :
    page.Minded fun _ => False := by
  cases isMinded with
  | settled minded => exact minded
  | telling stack => simp [isAtRest, stack] at rest

end Page

/-- Whether the host is plain and asks neither for a mount nor for an unmount. -/
def Move.IsMeek (move : Move) : Prop :=
  move.IsPlain ∧ ∀ request, move = .ask request → request.isWish = false

namespace Page

variable {page : Page}

theorem Minded.move
    {move : Move}
    (minded : page.Minded fun _ => False)
    (meek : move.IsMeek)
    (rest : page.isAtRest) :
    (page.move move).Minded fun _ => False := by
  have empty := stack_of_rest rest
  obtain ⟨plain, unwished⟩ := meek
  have framed (after : Page)
      (frames : page.Frames after)
      (same : ∀ key, (after.life key).stance = (page.life key).stance)
      (calls : ∀ call ∈ after.stack, call.isMeek) :
      after.Minded fun _ => False := by
    have phase (key : BindingId) : (after.life key).phase = (page.life key).phase :=
      congrArg Prod.fst (same key)
    have wanted (key : BindingId) : (after.life key).wanted = (page.life key).wanted :=
      congrArg Prod.snd (same key)
    refine ⟨calls, ?_, ?_, ?_⟩
    · intro key unwatched
      rw [frames.watch?] at unwatched
      rw [wanted]
      exact minded.unwatched key unwatched
    · intro key watch entry there audience
      rw [frames.scene] at there
      rw [frames.watch?, phase]
      exact minded.bound key watch entry there audience
    · intro key watch entry tight watched there
      rw [frames.watch?] at watched
      rw [frames.scene] at there ⊢
      rw [wanted, phase]
      refine (minded.minded key watch entry tight watched there).imp_right (.imp_right (.imp ?_ ?_))
      · rintro ⟨monitors, member, _⟩
        simp [empty] at member
      · intro doomed
        simp [empty] at doomed
  cases move with
  | scene | bind => exact plain.elim
  | ask request =>
      refine framed _ ⟨rfl, rfl, fun _ => rfl⟩ (fun key => rfl) ?_
      have asked : request.isPlain = true := plain
      have meek : (Call.request request).isMeek := by
        simp [Call.isMeek, asked, unwished request rfl]
      simpa [Page.move, push, empty] using meek
  | callback key notice script =>
      have confined := Confined.setCallback page key notice script
      refine framed _ confined.toFrames ?_ (by simp [Page.move, setCallback, changeBinding, empty])
      intro other
      exact life_stance_changeBinding page key (fun _ => rfl) fun _ => rfl
  | script actions =>
      refine ⟨by simp [Page.move, addScript, empty], minded.unwatched, minded.bound, ?_⟩
      exact minded.minded
  | constructor | plugin | catalog | registry =>
      refine framed _ ⟨rfl, rfl, fun _ => rfl⟩ (fun key => rfl) ?_
      simp [Page.move, addConstructor, addPlugin, setCatalog, empty]

theorem Begins.minded
    (begins : page.Begins)
    (bare : page.IsBare) :
    page.Minded fun _ => False := by
  obtain ⟨tree, viewport, scene⟩ := bare.scene
  have unbound (key : BindingId) : page.binding? key = none := by
    rw [binding?, bare.bindings]
    rfl
  refine ⟨by simp [begins.rest], ?_, ?_, ?_⟩
  · intro key _
    change ((page.binding? key).map Binding.wanted).getD false = false
    rw [unbound]
    rfl
  · intro key watch entry there
    rw [scene] at there
    cases there
  · intro key watch entry _ watched
    simp [watch?, outlook?, unbound] at watched

end Page

namespace Run

variable {start page : Page} {passed : List Page}

/-- All along a run that wishes nothing bindings mind their watches. -/
theorem minded
    (begins : start.Begins)
    (bare : start.IsBare)
    (idle : start.HasIdleScripts)
    (run : Run Move.IsMeek start passed page) :
    page.IsMinded := by
  induction run with
  | begin => exact .settled (begins.minded bare)
  | move move _ rest meek inductionHypothesis =>
      exact .settled ((inductionHypothesis.of_rest rest).move meek rest)
  | step earlier inductionHypothesis =>
      have run := earlier.mono fun _ meek => meek.1
      obtain ⟨_, linked, _, planned⟩ := run.linked begins bare idle
      exact inductionHypothesis.step linked
        (fun key busy => (earlier.lives begins key).present_of_busy (.inl busy)) planned

end Run

end Hydration
