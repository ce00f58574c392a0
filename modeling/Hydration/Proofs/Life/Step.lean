import Hydration.Proofs.Life.Foreign

/-!
# Steps in the life of a binding

Every step of a page is `Carried` or `Disturbed` in the life of each binding.
From this a run of the page is a life that was `Reached`, which is how laws
about one binding are proved: hold at the beginning, and be kept by each of the
two.
-/

namespace Hydration

namespace Page

variable {key : BindingId} {page : Page} {binding : Binding}

theorem life_setPhase (found : page.binding? key = some binding) (phase : Phase) :
    (page.setPhase key phase).life key = { page.life key with phase } := by
  rw [setPhase, life_changeBinding page found]
  simp [life, found]

theorem life_setWanted (found : page.binding? key = some binding) (wanted : Bool) :
    (page.setWanted key wanted).life key = { page.life key with wanted } := by
  rw [setWanted, life_changeBinding page found]
  simp [life, found]

theorem mounts_iff (found : page.binding? key = some binding) (attempt : Nat) :
    (page.life key).Mounts attempt ↔ isCurrent binding attempt = true := by
  simp [Life.Mounts, isCurrent, life, found]

/-- Everything asked for while an import is turned into an instance begins with a construct call. -/
theorem life_consult
    (page : Page)
    (binding : Binding)
    (attempt : Nat)
    (question : Question)
    (stage : Stage) :
    (page.consult key binding attempt question stage).life key =
      (page.life key).push [.construct key attempt stage] := by
  unfold consult
  split <;> simp [Call.isOf]

theorem life_fail
    (found : page.binding? key = some binding)
    (attempt : Nat)
    (fault : MountFault) :
    (page.fail key attempt fault).life key = (page.life key).fail key attempt fault := by
  rw [fail, report, life_push, life_record_of_isOf _ (by simp [Event.isOf]),
    life_setPhase found]
  simp [Life.fail, Life.push, Call.isOf]

theorem carried_notice
    (found : page.binding? key = some binding)
    (noticed : Notice)
    (fault : Option MountFault) :
    Life.Carried key (.notice key noticed fault) (page.life key)
      ((page.notice key noticed fault).life key) := by
  obtain ⟨_, phase, wanted, _, _⟩ := life_of_found found
  have shape :
      (page.notice key noticed fault).life key =
        { page.life key with
          events :=
            .noticed key noticed (page.life key).phase (page.life key).wanted fault
              (binding.script? noticed).isSome :: (page.life key).events } := by
    rw [phase, wanted]
    simp only [notice, found]
    split
    · exact life_record_of_isOf page (by simp [Event.isOf])
    · rw [life_push, life_record_of_isOf page (by simp [Event.isOf])]
      rfl
  rw [shape]
  exact .notice _ _ _ _

/-- An attempt that begins shows as one, whoever has asked for it. -/
theorem life_mount_of_unmounted
    (found : page.binding? key = some binding)
    (unmounted : binding.phase = .unmounted) :
    (page.mount key).life key = (page.life key).begin key := by
  obtain ⟨_, _, _, attempt, _⟩ := life_of_found found
  simp only [mount, found, unmounted]
  rw [life_push, life_changeBinding page found]
  simp [Life.begin, Life.push, Call.isOf, life, found]

theorem disturbed_mount (found : page.binding? key = some binding) :
    Life.Disturbed key (page.life key) ((page.mount key).life key) := by
  obtain ⟨present, phase, _, _, _⟩ := life_of_found found
  cases stage : binding.phase with
  | unmounted =>
      rw [life_mount_of_unmounted found stage]
      exact .attempt _ present (phase.trans stage)
  | mounting =>
      simp only [mount, found, stage, life_setWanted found]
      exact .wish _ present (.inl (phase.trans stage))
  | mounted =>
      simp only [mount, found, stage, life_setWanted found]
      exact .wish _ present (.inr (phase.trans stage))
  | destroyed =>
      simp only [mount, found, stage]
      exact .aside _ _ (Nat.le_refl _)

theorem disturbed_unmount (found : page.binding? key = some binding) :
    Life.Disturbed key (page.life key) ((page.unmount key).life key) := by
  obtain ⟨present, phase, _, _, _⟩ := life_of_found found
  cases stage : binding.phase with
  | unmounted =>
      simp only [unmount, phase_of_found found, stage, life_setWanted found]
      exact .forgo _ present (.inl (phase.trans stage))
  | mounting =>
      simp only [unmount, phase_of_found found, stage, life_setWanted found]
      exact .forgo _ present (.inr (phase.trans stage))
  | mounted =>
      simp only [unmount, phase_of_found found, stage, life_push, life_setWanted found]
      simpa [Call.isOf] using
        Life.Disturbed.revoke (page.life key) present (phase.trans stage)
  | destroyed =>
      simp only [unmount, phase_of_found found, stage]
      exact .aside _ _ (Nat.le_refl _)

theorem disturbed_destroy (found : page.binding? key = some binding) :
    Life.Disturbed key (page.life key) ((page.destroy key).life key) := by
  obtain ⟨present, phase, _, _, _⟩ := life_of_found found
  unfold destroy
  split
  · exact .aside _ _ (Nat.le_refl _)
  · next living =>
      rw [phase_of_found found, ← phase] at living
      simpa [Call.isOf] using Life.Disturbed.doom (page.life key) present living

theorem disturbed_report
    (found : page.binding? key = some binding)
    (living : binding.phase ≠ .destroyed)
    (fault : ContextFault) :
    Life.Disturbed key (page.life key) ((page.report key (.configuration fault)).life key) := by
  obtain ⟨present, phase, _⟩ := life_of_found found
  rw [← phase] at living
  simpa [report, Call.isOf] using Life.Disturbed.complain (page.life key) present living fault

theorem disturbed_start (found : page.binding? key = some binding) :
    Life.Disturbed key (page.life key) ((page.start key).life key) := by
  have starts := page.starts key
  generalize page.start key = after at starts ⊢
  cases starts with
  | late => exact .aside _ _ (Nat.le_refl _)
  | unread there living => exact disturbed_report there living _
  | @refused _ _ scene _ there living =>
      have kept : ({ page with scene } : Page).binding? key = _ := there
      exact disturbed_report kept living _
  | @watched _ _ scene watch =>
      have kept :
          ({ page with scene := scene.listen watch (.binding key) } : Page).binding? key =
            some binding := found
      have given : (page.giveWatch key scene watch).life key = page.life key := by
        rw [giveWatch, life_changeBinding _ kept]
        simp [life, found, kept, importsOf]
      have unheard (verdict : Bool) :
          (if verdict then [Call.request (.bind .mount key)] else []).filter (Call.isOf key) =
            [] := by
        cases verdict <;> rfl
      rw [life_push, given, unheard]
      exact .aside _ _ (Nat.le_refl _)

/-- A task that is spawned for the current attempt waits, or its import comes in at once. -/
theorem Spawns.carried
    {launched after : Page}
    {spawning : Spawning}
    {attempt : Nat}
    {pending : Import Module}
    (spawned : launched.Spawns spawning ⟨key, attempt, pending⟩ after)
    (mounts : (launched.life key).Mounts attempt) :
    Life.Carried key (.launch key attempt) (launched.life key) (after.life key) := by
  cases spawned with
  | waits =>
      rw [life_executor_more _ (Executor.unfinished_spawn _ _ _), if_pos rfl]
      exact .launchWaits _ _ mounts
  | @lands outcome catalog =>
      have polled : ({ launched with catalog } : Page).life key = launched.life key :=
        life_congr rfl rfl rfl rfl rfl
      rw [life_push, polled]
      simpa [Call.isOf] using
        Life.Carried.launchLands (launched.life key) attempt mounts outcome

theorem carried_launch
    (found : page.binding? key = some binding)
    (attempt : Nat) :
    Life.Carried key (.launch key attempt) (page.life key)
      ((page.launch key attempt).life key) := by
  have launches := page.launches key attempt
  generalize page.launch key attempt = after at launches ⊢
  cases launches with
  | late done =>
      exact .launchLate _ _ fun mounts => done binding found ((mounts_iff found attempt).mp mounts)
  | starts reports there current spawned =>
      have mounts := (mounts_iff there attempt).mpr current
      rw [← life_reported page reports] at mounts ⊢
      exact spawned.carried mounts

theorem carried_arrive
    (found : page.binding? key = some binding)
    (attempt : Nat)
    (outcome : Except MountFault Module) :
    Life.Carried key (.arrive key attempt outcome) (page.life key)
      ((page.arrive key attempt outcome).life key) := by
  by_cases current : isCurrent binding attempt = true
  · have mounts := (mounts_iff found attempt).mpr current
    cases outcome with
    | error fault =>
        simp only [arrive, found, current, if_true, life_fail found]
        exact .arriveFault _ _ _ mounts
    | ok module =>
        simp only [arrive, found, current, if_true, life_consult]
        exact .arriveModule _ _ _ mounts
  · have late : ¬ (page.life key).Mounts attempt :=
      fun mounts => current ((mounts_iff found attempt).mp mounts)
    simp only [arrive, found, current]
    exact .arriveLate _ _ _ late

theorem carried_choose
    (found : page.binding? key = some binding)
    (attempt : Nat)
    (module : Module) :
    Life.Carried key (.construct key attempt (.choosing module)) (page.life key)
      ((page.choose key binding attempt module).life key) := by
  unfold choose
  split
  · rw [life_fail found]
    exact .constructFault _ _ _ _ (by simp)
  · next chosen _ =>
      dsimp only
      rw [life_consult]
      split
      · exact .choose _ _ _ _ [] (by simp)
      · rw [life_record_of_isOf page (by simp [Event.isOf])]
        exact .choose _ _ _ _ [.arguments key] (by simp)

theorem carried_equip
    (found : page.binding? key = some binding)
    (attempt : Nat)
    (chosen : ConstructorId) :
    Life.Carried key (.construct key attempt (.equipping chosen)) (page.life key)
      ((page.equip key binding attempt chosen).life key) := by
  unfold equip
  split
  · rw [life_fail found]
    exact .constructFault _ _ _ _ (by simp)
  · rw [life_fail found]
    exact .constructFault _ _ _ _ (by simp)
  · next arguments constructor _ _ =>
      rw [life_push, life_record_of_isOf page (by simp [Event.isOf])]
      simpa [Call.isOf] using
        Life.Carried.equip (page.life key) attempt chosen constructor.name arguments

theorem carried_build
    (found : page.binding? key = some binding)
    (attempt : Nat)
    (chosen : ConstructorId) :
    Life.Carried key (.construct key attempt (.building chosen)) (page.life key)
      ((page.build key binding attempt chosen).life key) := by
  unfold build
  split
  · rw [life_fail found]
    exact .constructFault _ _ _ _ (by simp)
  · next constructor _ =>
      have counted (constructors : Table Constructor) :
          ({ page with constructors } : Page).binding? key = some binding := found
      split
      · next fault _ =>
          rw [life_fail (counted _)]
          exact .constructFault (page.life key) attempt _ fault (by simp)
      · dsimp only
        rw [life_consult, life_record_of_isOf _ (by simp [Event.isOf])]
        exact .build (page.life key) attempt chosen
          (Occupant.of constructor chosen page.instances binding.hooks.extractsDestructor) rfl

theorem carried_construct
    (found : page.binding? key = some binding)
    (attempt : Nat)
    (stage : Stage) :
    Life.Carried key (.construct key attempt stage) (page.life key)
      ((page.construct key attempt stage).life key) := by
  cases stage with
  | choosing module =>
      simpa only [construct, found] using carried_choose found attempt module
  | equipping chosen =>
      simpa only [construct, found] using carried_equip found attempt chosen
  | building chosen =>
      simpa only [construct, found] using carried_build found attempt chosen
  | fitting occupant =>
      have moved :
          (page.moveIn key occupant).life key =
            { page.life key with occupant := some occupant, phase := .mounted }.push
              [.notice key .didMount none, .notice key .onMount none, .settle key] := by
        rw [moveIn, life_push, life_changeBinding page found]
        simp [Call.isOf, life, found]
      simp only [construct, found, moved]
      exact .moveIn _ _ _

theorem carried_settle (found : page.binding? key = some binding) :
    Life.Carried key (.settle key) (page.life key) ((page.settle key).life key) := by
  obtain ⟨_, _, wanted, _, _⟩ := life_of_found found
  unfold settle
  rw [wants_of_found found, ← wanted]
  split
  · next wished =>
      exact .settleWanted _ wished
  · next unwished =>
      have unwanted : (page.life key).wanted = false := by
        simpa using unwished
      simpa [Call.isOf] using Life.Carried.settleUnwanted (page.life key) unwanted

theorem carried_teardown (found : page.binding? key = some binding) :
    Life.Carried key (.teardown key) (page.life key) ((page.teardown key).life key) := by
  obtain ⟨_, phase, _, _, _⟩ := life_of_found found
  unfold teardown
  rw [phase_of_found found, ← phase]
  split
  · next mounted =>
      simpa [Call.isOf] using Life.Carried.teardown (page.life key) mounted
  · next vacant =>
      exact .teardownLate _ vacant

theorem carried_dismantle (found : page.binding? key = some binding) :
    Life.Carried key (.dismantle key) (page.life key) ((page.dismantle key).life key) := by
  obtain ⟨_, phase, _, _, occupant⟩ := life_of_found found
  by_cases mounted : binding.phase = .mounted
  · have emptied :
        ((page.changeBinding key fun binding => { binding with occupant := none }).push
            [.vacated key]).life key =
          { page.life key with occupant := none }.push [.vacated key] := by
      rw [life_push, life_changeBinding page found]
      simp [Call.isOf, life, found]
    have shape :
        (page.dismantle key).life key =
          { page.life key with
            occupant := none
            events := (page.life key).removal key ++ (page.life key).events }.push
            [.vacated key] := by
      simp only [dismantle, found, mounted, if_true, Life.removal, occupant]
      cases inPlace : binding.occupant with
      | none =>
          simpa only [List.nil_append] using emptied
      | some leaving =>
          cases taken : leaving.destructor with
          | none =>
              simpa only [taken, List.nil_append] using emptied
          | some destructor =>
              simp only [taken]
              rw [life_push, life_record_of_isOf _ (by simp [Event.isOf]), emptied]
              simp [Call.isOf, Life.push]
    rw [shape]
    exact .dismantle _ (phase.trans mounted)
  · simp only [dismantle, found, mounted]
    exact .dismantleLate _ (by rwa [phase])

theorem carried_vacated (found : page.binding? key = some binding) :
    Life.Carried key (.vacated key) (page.life key) ((page.vacated key).life key) := by
  unfold vacated
  rw [life_push, life_setPhase found]
  simpa [Call.isOf] using Life.Carried.vacated (page.life key)

theorem carried_remount (found : page.binding? key = some binding) :
    Life.Carried key (.remount key) (page.life key) ((page.remount key).life key) := by
  obtain ⟨_, phase, wanted, _, _⟩ := life_of_found found
  unfold remount
  rw [wants_of_found found, phase_of_found found]
  split
  · next again =>
      rw [life_mount_of_unmounted found again.2]
      exact .remount _ (wanted.trans again.1) (phase.trans again.2)
  · next late =>
      rw [← wanted, ← phase] at late
      exact .remountLate _ late

theorem carried_retire (found : page.binding? key = some binding) :
    Life.Carried key (.retire key) (page.life key) ((page.retire key).life key) := by
  obtain ⟨_, phase, _, _, _⟩ := life_of_found found
  unfold retire
  rw [phase_of_found found, ← phase]
  dsimp only
  split
  · next mounted =>
      rw [life_push, life_setWanted found]
      simpa [Call.isOf] using Life.Carried.retireMounted (page.life key) mounted
  · next vacant =>
      rw [life_push, life_setWanted found]
      simpa [Call.isOf] using Life.Carried.retire (page.life key) vacant

theorem carried_bury (found : page.binding? key = some binding) :
    Life.Carried key (.bury key) (page.life key) ((page.bury key).life key) := by
  have unwatched (scene : Scene) :
      (({ page with scene } : Page).changeBinding key fun binding =>
          { binding with watch := none, phase := .destroyed }).life key =
        { page.life key with phase := .destroyed } := by
    have kept : ({ page with scene } : Page).binding? key = some binding := found
    rw [life_changeBinding _ kept]
    simp [life, found, kept, importsOf]
  have shape :
      (page.bury key).life key =
        { page.life key with phase := .destroyed }.push
          [.notice key .didDestroy none, .notice key .onDestroy none] := by
    unfold bury
    rw [life_push]
    simp only [found, Option.bind_some, Call.isOf, decide_true, List.filter_cons_of_pos,
      List.filter_nil]
    split
    · exact congrArg (Life.push · _) (unwatched page.scene)
    · exact congrArg (Life.push · _) (unwatched _)
  rw [shape]
  exact .bury _

/-- Carrying on a call of a binding is one of the cases of `Carried`. -/
theorem carryOn_carried
    (found : page.binding? key = some binding)
    {call : Call}
    (own : call.isOf key) :
    Life.Carried key call (page.life key) ((page.carryOn call).life key) := by
  cases call with
  | notice other noticed fault =>
      obtain rfl : other = key := of_decide_eq_true own
      exact carried_notice found noticed fault
  | launch other attempt =>
      obtain rfl : other = key := of_decide_eq_true own
      exact carried_launch found attempt
  | arrive other attempt outcome =>
      obtain rfl : other = key := of_decide_eq_true own
      exact carried_arrive found attempt outcome
  | construct other attempt stage =>
      obtain rfl : other = key := of_decide_eq_true own
      exact carried_construct found attempt stage
  | settle other =>
      obtain rfl : other = key := of_decide_eq_true own
      exact carried_settle found
  | teardown other =>
      obtain rfl : other = key := of_decide_eq_true own
      exact carried_teardown found
  | dismantle other =>
      obtain rfl : other = key := of_decide_eq_true own
      exact carried_dismantle found
  | vacated other =>
      obtain rfl : other = key := of_decide_eq_true own
      exact carried_vacated found
  | remount other =>
      obtain rfl : other = key := of_decide_eq_true own
      exact carried_remount found
  | retire other =>
      obtain rfl : other = key := of_decide_eq_true own
      exact carried_retire found
  | bury other =>
      obtain rfl : other = key := of_decide_eq_true own
      exact carried_bury found
  | request | script | deliver | pin | hydrate | destroyEach | drive =>
      cases own

/-- What leaves a life alone is a way to be disturbed. -/
private theorem disturbed_of_eq
    {before after : Life}
    (same : after = before) :
    Life.Disturbed key before after := by
  rw [same]
  exact .aside _ _ (Nat.le_refl _)

/-- A binding that was not made yet obeys nobody. -/
theorem obey_of_absent
    (absent : page.binding? key = none)
    (verb : Verb) :
    page.obey verb key = page := by
  have phase : page.phase key = .destroyed := by
    simp [phase, absent]
  cases verb with
  | start => simp only [obey, start, absent]
  | mount => simp only [obey, mount, absent]
  | unmount => simp only [obey, unmount, phase]
  | destroy => simp only [obey, destroy, phase, if_true]

theorem disturbed_obey (page : Page) (verb : Verb) (other : BindingId) :
    Life.Disturbed key (page.life key) ((page.obey verb other).life key) := by
  by_cases own : other = key
  · subst other
    cases made : page.binding? key with
    | none =>
        exact disturbed_of_eq (by rw [obey_of_absent made])
    | some binding =>
        cases verb with
        | start => exact disturbed_start made
        | mount => exact disturbed_mount made
        | unmount => exact disturbed_unmount made
        | destroy => exact disturbed_destroy made
  · apply disturbed_of_eq
    cases verb with
    | start => exact life_start_other page own
    | mount => exact life_mount_other page own
    | unmount => exact life_unmount_other page own
    | destroy => exact life_destroy_other page own

theorem life_refresh (page : Page) (change : Scene × List MonitorId) :
    (page.refresh change).life key = page.life key := by
  rw [refresh, life_push]
  exact life_congr rfl rfl rfl rfl rfl

theorem disturbed_answer (page : Page) (request : Request) :
    Life.Disturbed key (page.life key) ((page.answer request).life key) := by
  cases request with
  | bind verb other => exact disturbed_obey page verb other
  | drive queue =>
      apply disturbed_of_eq
      simp only [answer, drive]
      split
      · rfl
      · simp [Call.isOf]
  | toggle | resize | reveal =>
      exact disturbed_of_eq (life_refresh page _)
  | release gate =>
      exact disturbed_of_eq
        (life_executor_same page (Executor.unfinished_release page.executor gate))
  | mark | append | cancel | dropSubscription | dropMonitor =>
      exact disturbed_of_eq (life_congr rfl rfl rfl rfl rfl)
  | hydrate root =>
      apply disturbed_of_eq
      simp only [answer, hydrate, life_push]
      exact life_congr rfl rfl rfl rfl rfl
  | destroyAll =>
      apply disturbed_of_eq
      simp only [answer, destroyAll, life_push]
      exact life_congr rfl rfl rfl rfl rfl

theorem life_runScript
    (page : Page)
    (script : ScriptId)
    (position : Nat)
    (subject : Option BindingId) :
    (page.runScript script position subject).life key = page.life key := by
  have plays := page.plays script position subject
  generalize page.runScript script position subject = after at plays ⊢
  cases plays with
  | finished => rfl
  | skips => simp [Call.isOf]
  | plays =>
      have foreign (requests : List Request) :
          (requests.map Call.request ++ [Call.script script (position + 1) subject]).filter
            (Call.isOf key) = [] := by
        simp [List.filter_map, Function.comp_def, Call.isOf]
      rw [life_push, foreign, Life.push_nil]
      exact life_congr rfl rfl rfl rfl rfl

theorem life_tell (page : Page) (audience : Audience) (value : Bool) :
    (page.tell audience value).life key = page.life key := by
  unfold tell
  split
  · simp [Call.isOf]
  · exact life_record_of_not_isOf page rfl

theorem life_hear (page : Page) (listener : Listener) (value : Bool) :
    (page.hear listener value).life key = page.life key := by
  unfold hear
  split
  · rw [life_push, life_record_of_not_isOf page rfl]
    simp [Call.isOf]
  · split
    · rfl
    · split
      · rfl
      · rw [life_tell, life_push]
        simp [Call.isOf]

theorem life_deliver (page : Page) (monitors : List MonitorId) :
    (page.deliver monitors).life key = page.life key := by
  unfold deliver
  split
  · rfl
  · dsimp only
    split
    · simp [Call.isOf]
    · rw [life_hear]
      simp [Call.isOf]

theorem disturbed_hydrateNext
    (page : Page)
    (hooks : Hooks)
    (elements : List ElementId) :
    Life.Disturbed key (page.life key) ((page.hydrateNext hooks elements).life key) := by
  unfold hydrateNext
  split
  · exact .aside _ _ (Nat.le_refl _)
  · next element rest =>
      dsimp only
      have waiting :
          (page.push [.hydrate hooks rest]).life key = page.life key := by
        simp [Call.isOf]
      split
      · exact disturbed_of_eq waiting
      · next label _ =>
          have fresh : (page.bindingOf hooks element label).IsFresh :=
            Binding.isFresh_fresh label _ element _ hooks
          have listed (bound : Page) (modules : List BindingId) :
              ({ bound with modules } : Page).life key = bound.life key :=
            life_congr rfl rfl rfl rfl rfl
          rw [life_push,
            listed ((page.push [.hydrate hooks rest]).addBinding
              (page.bindingOf hooks element label)) _]
          simp only [Call.isOf, Bool.false_eq_true, not_false_eq_true,
            List.filter_cons_of_neg, List.filter_nil, Life.push_nil]
          rcases life_addBinding (page.push [.hydrate hooks rest]) fresh with same | made
          · exact disturbed_of_eq (same.trans waiting)
          · rw [made, waiting]
            exact .born _

theorem life_destroyNext (page : Page) (bindings : List BindingId) :
    (page.destroyNext bindings).life key = page.life key := by
  unfold destroyNext
  split
  · rfl
  · simp [Call.isOf]

theorem disturbed_driveNext (page : Page) (queue : QueueName) :
    Life.Disturbed key (page.life key) ((page.driveNext queue).life key) := by
  have drives := page.drives queue
  have drained := Executor.unfinished_drain page.executor queue
  generalize page.driveNext queue = after at drives ⊢
  cases drives with
  | drained => exact disturbed_of_eq (life_executor_same page drained)
  | @lands task executor outcome catalog taken =>
      have unfinished := (Executor.unfinished_of_next? taken).symm.trans drained
      -- The page before the task was handed out, seen from the page after it.
      have before :
          page.life key =
            if task.binding = key then
              { ({ page with executor } : Page).life key with
                imports :=
                  task.attempt ::ₘ (({ page with executor } : Page).life key).imports }
            else ({ page with executor } : Page).life key :=
        (life_executor_same page rfl).symm.trans
          (life_executor_more { page with executor } unfinished.symm)
      have polled :
          ({ page with catalog, executor } : Page).life key =
            ({ page with executor } : Page).life key :=
        life_congr rfl rfl rfl rfl rfl
      rw [life_push, polled]
      generalize ({ page with executor } : Page).life key = handed at before ⊢
      by_cases own : task.binding = key
      · rw [if_pos own] at before
        rw [before]
        simpa [Call.isOf, own] using Life.Disturbed.land handed task.attempt outcome
      · rw [if_neg own] at before
        rw [before]
        exact disturbed_of_eq (by simp [Call.isOf, own])
  | @waits task executor gate taken =>
      have waiting :
          ((executor.wait gate queue task).unfinished : Multiset Task) =
            page.executor.unfinished :=
        (Executor.unfinished_wait executor gate queue task).trans
          ((Executor.unfinished_of_next? taken).symm.trans drained)
      apply disturbed_of_eq
      calc
        _ = ({ page with executor := executor.wait gate queue task } : Page).life key :=
          life_push { page with executor := executor.wait gate queue task } [.drive queue]
        _ = page.life key := life_executor_same page waiting

/-- Carrying on a call of another binding leaves a binding alone. -/
theorem life_carryOn_other
    {other : BindingId}
    {call : Call}
    (page : Page)
    (own : call.isOf other)
    (different : other ≠ key) :
    ∃ instances, page.instances ≤ instances ∧
      (page.carryOn call).life key = { page.life key with instances } := by
  have same (equal : (page.carryOn call).life key = page.life key) :
      ∃ instances, page.instances ≤ instances ∧
        (page.carryOn call).life key = { page.life key with instances } :=
    ⟨page.instances, Nat.le_refl _, equal⟩
  have worked (works : call.works) :
      ∃ instances, page.instances ≤ instances ∧
        (page.carryOn call).life key = { page.life key with instances } := by
    obtain ⟨_, _, works⟩ := Works.carryOn page own works
    exact life_works_other works different
  cases call with
  | request | script | deliver | pin | hydrate | destroyEach | drive => cases own
  | launch _ attempt =>
      cases of_decide_eq_true own
      exact same (life_launch_other page attempt different)
  | remount =>
      cases of_decide_eq_true own
      exact same (life_remount_other page different)
  | retire =>
      cases of_decide_eq_true own
      exact same (life_retire_other page different)
  | bury =>
      cases of_decide_eq_true own
      exact same (life_bury_other page different)
  | notice | arrive | construct | settle | teardown | dismantle | vacated => exact worked rfl

/-- Carrying on a call that is not of a binding only disturbs the binding. -/
theorem carryOn_disturbed
    (page : Page)
    {call : Call}
    (foreign : call.isOf key = false) :
    Life.Disturbed key (page.life key) ((page.carryOn call).life key) := by
  have owned {other : BindingId} (own : call.isOf other) :
      Life.Disturbed key (page.life key) ((page.carryOn call).life key) := by
    have different : other ≠ key := by
      rintro rfl
      cases foreign.symm.trans own
    obtain ⟨instances, grown, same⟩ := life_carryOn_other page own different
    rw [same]
    exact .aside _ _ grown
  cases call with
  | request request => exact disturbed_answer page request
  | script script position subject =>
      exact disturbed_of_eq (life_runScript page script position subject)
  | deliver monitors => exact disturbed_of_eq (life_deliver page monitors)
  | pin => exact disturbed_of_eq rfl
  | hydrate hooks elements => exact disturbed_hydrateNext page hooks elements
  | destroyEach bindings => exact disturbed_of_eq (life_destroyNext page bindings)
  | drive queue => exact disturbed_driveNext page queue
  | notice other | launch other | arrive other | construct other | settle other | teardown other
  | dismantle other | vacated other | remount other | retire other | bury other =>
      exact owned (decide_eq_true (Eq.refl other))

end Page

end Hydration
