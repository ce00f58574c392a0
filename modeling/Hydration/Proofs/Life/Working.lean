import Hydration.Proofs.Life.Basic
import Hydration.Proofs.Outcomes

/-!
# A life at work

Most of what the life of a binding does to a page is its own affair.  Imports,
wishes and the end apart, the binding moves to other phases and has other
instances, calls of its own come under way, scripts of its own are run, and
events of its own are recorded.  All else of the page is left alone, and so are
the lives of all other bindings.

Each call weighs more than all that it leaves to be done when its scripts ask
for nothing.
-/

namespace Hydration

/-- Whether a call comes under way without an import, a hydration or a request to the page. -/
def Call.isOrdinary : Call → Bool
  | request (.bind _ _) => true
  | request _ | arrive _ _ _ | hydrate _ _ | destroyEach _ | drive _ => false
  | _ => true

/-- The binding that a call belongs to, or that a script is run for. -/
@[simp] def Call.subject? : Call → Option BindingId
  | script _ _ subject => subject
  | notice key _ _ | launch key _ | arrive key _ _ | construct key _ _ | settle key
  | teardown key | dismantle key | vacated key | remount key | retire key | bury key => some key
  | _ => none

/-- Whether a call leads to the end of its binding. -/
@[simp] def Call.ends : Call → Bool
  | retire _ | bury _ => true
  | _ => false

@[simp] def Stage.heft : Stage → Nat
  | fitting _ => 17
  | building _ => 19
  | equipping _ => 21
  | choosing _ => 23

/-- More than the number of steps that a call takes to its end. -/
@[simp] def Call.heft : Call → Nat
  | script _ _ _ | pin _ | remount _ => 1
  | notice _ _ _ => 2
  | vacated _ => 6
  | dismantle _ => 8
  | teardown _ => 11
  | settle _ => 12
  | construct _ _ stage => stage.heft
  | arrive _ _ _ => 25
  | launch _ _ => 26
  | request _ => 29
  | deliver monitors => 33 * monitors.length + 1
  | _ => 0

/-- The heft of calls under way. -/
def heftOf : List Call → Nat
  | [] => 0
  | call :: calls => call.heft + heftOf calls

@[simp] theorem heftOf_nil : heftOf [] = 0 := rfl

@[simp] theorem heftOf_cons (call : Call) (calls : List Call) :
    heftOf (call :: calls) = call.heft + heftOf calls := rfl

@[simp] theorem heftOf_append (first second : List Call) :
    heftOf (first ++ second) = heftOf first + heftOf second := by
  induction first with
  | nil => exact (Nat.zero_add _).symm
  | cons call calls inductionHypothesis =>
      rw [List.cons_append, heftOf_cons, heftOf_cons, inductionHypothesis, Nat.add_assoc]

/-- A call of a binding has it as its subject. -/
theorem Call.subject?_of_isOf {call : Call} {key : BindingId} (own : call.isOf key) :
    call.subject? = some key := by
  cases call with
  | request | script | deliver | pin | hydrate | destroyEach | drive => cases own
  | _ => exact congrArg some (of_decide_eq_true own)

/-- A call with a subject belongs to it or runs a script for it. -/
theorem Call.isOf_or_script {call : Call} {key : BindingId} (own : call.subject? = some key) :
    call.isOf key ∨ ∃ script position, call = .script script position (some key) := by
  cases call with
  | request | deliver | pin | hydrate | destroyEach | drive => cases own
  | script script position subject =>
      cases own
      exact .inr ⟨script, position, rfl⟩
  | _ => exact .inl (decide_eq_true (Option.some.inj own))

/-- An event happens to one binding only. -/
theorem Event.isOf_eq
    {event : Event}
    {key : BindingId}
    (own : event.isOf key)
    (other : BindingId) :
    event.isOf other = decide (key = other) := by
  cases event with
  | loading | told | heard => cases own
  | _ =>
      cases of_decide_eq_true own
      rfl

/-- Whether a call goes on with a life without an import, a wish or the end. -/
def Call.works : Call → Bool
  | notice _ _ _ | arrive _ _ _ | construct _ _ _ | settle _ | teardown _ | dismantle _
  | vacated _ => true
  | _ => false

/-- A binding has changed in its phase, its attempt and its instance at most, and has not ended. -/
def Binding.Evolves (before after : Binding) : Prop :=
  ∃ phase attempt occupant, after = { before with phase, attempt, occupant } ∧
    (phase = .destroyed → before.phase = .destroyed)

theorem Binding.Evolves.refl (binding : Binding) : binding.Evolves binding :=
  ⟨binding.phase, binding.attempt, binding.occupant, rfl, id⟩

theorem Binding.Evolves.trans
    {first second third : Binding}
    (earlier : first.Evolves second)
    (later : second.Evolves third) :
    first.Evolves third := by
  obtain ⟨_, _, _, rfl, living⟩ := earlier
  obtain ⟨phase, attempt, occupant, rfl, livingToo⟩ := later
  exact ⟨phase, attempt, occupant, rfl, fun destroyed => living (livingToo destroyed)⟩

namespace Page

/-- The life of a binding was at work, and it leaves at most so much to be done. -/
structure Works (key : BindingId) (heft : Nat) (before after : Page) : Prop where
  scene : after.scene = before.scene
  registry : after.registry = before.registry
  catalog : after.catalog = before.catalog
  scripts : after.scripts = before.scripts
  hooks : after.hooks = before.hooks
  modules : after.modules = before.modules
  executor : after.executor = before.executor
  instances : before.instances ≤ after.instances
  bindings :
    ∃ change, after.bindings = before.bindings.modify key change ∧
      ∀ binding : Binding, binding.Evolves (change binding)
  history :
    ∃ events, after.history = events ++ before.history ∧ ∀ event ∈ events, event.isOf key
  stack :
    ∃ added, after.stack = added ++ before.stack ∧
      (∀ call ∈ added, call.subject? = some key ∧ call.ends = false ∧ call.isOrdinary) ∧
        heftOf added ≤ heft

namespace Works

variable {key : BindingId} {first second third : Page} {heft more : Nat}

theorem push
    (page : Page)
    {calls : List Call}
    (own :
      ∀ call ∈ calls, call.subject? = some key ∧ call.ends = false ∧ call.isOrdinary)
    (light : heftOf calls ≤ heft) :
    page.Works key heft (page.push calls) :=
  ⟨rfl, rfl, rfl, rfl, rfl, rfl, rfl, Nat.le_refl _,
    ⟨id, (page.bindings.modify_id key).symm, .refl⟩, ⟨[], rfl, by simp⟩, calls, rfl, own, light⟩

theorem record
    (page : Page)
    {event : Event}
    (own : event.isOf key) :
    page.Works key 0 (page.record event) :=
  ⟨rfl, rfl, rfl, rfl, rfl, rfl, rfl, Nat.le_refl _,
    ⟨id, (page.bindings.modify_id key).symm, .refl⟩, ⟨[event], rfl, by simpa using own⟩,
    [], rfl, by simp, Nat.le_refl _⟩

theorem changeBinding
    (page : Page)
    {change : Binding → Binding}
    (evolves : ∀ binding : Binding, binding.Evolves (change binding)) :
    page.Works key 0 (page.changeBinding key change) :=
  ⟨rfl, rfl, rfl, rfl, rfl, rfl, rfl, Nat.le_refl _, ⟨change, rfl, evolves⟩,
    ⟨[], rfl, by simp⟩, [], rfl, by simp, Nat.le_refl _⟩

/-- Constructors are called, and what they build is counted. -/
theorem recount
    (page : Page)
    (constructors : Table Constructor)
    {instances : Nat}
    (grown : page.instances ≤ instances) :
    page.Works key 0 { page with constructors, instances } :=
  ⟨rfl, rfl, rfl, rfl, rfl, rfl, rfl, grown,
    ⟨id, (page.bindings.modify_id key).symm, .refl⟩, ⟨[], rfl, by simp⟩,
    [], rfl, by simp, Nat.le_refl _⟩

theorem refl (page : Page) : page.Works key heft page := by
  have nothing : page.Works key heft (page.push []) := push page (by simp) (Nat.zero_le heft)
  exact nothing

theorem trans
    (earlier : first.Works key heft second)
    (later : second.Works key more third) :
    first.Works key (heft + more) third where
  scene := later.scene.trans earlier.scene
  registry := later.registry.trans earlier.registry
  catalog := later.catalog.trans earlier.catalog
  scripts := later.scripts.trans earlier.scripts
  hooks := later.hooks.trans earlier.hooks
  modules := later.modules.trans earlier.modules
  executor := later.executor.trans earlier.executor
  instances := earlier.instances.trans later.instances
  bindings := by
    obtain ⟨change, before, evolves⟩ := earlier.bindings
    obtain ⟨further, after, evolvesToo⟩ := later.bindings
    refine ⟨further ∘ change, by rw [after, before, Table.modify_modify], fun binding => ?_⟩
    exact (evolves binding).trans (evolvesToo (change binding))
  history := by
    obtain ⟨inner, before, own⟩ := earlier.history
    obtain ⟨outer, after, ownToo⟩ := later.history
    refine ⟨outer ++ inner, by rw [after, before, List.append_assoc], fun event member => ?_⟩
    exact (List.mem_append.mp member).elim (ownToo event) (own event)
  stack := by
    obtain ⟨inner, before, own, light⟩ := earlier.stack
    obtain ⟨outer, after, ownToo, lightToo⟩ := later.stack
    refine ⟨outer ++ inner, by rw [after, before, List.append_assoc], fun call member => ?_, ?_⟩
    · exact (List.mem_append.mp member).elim (ownToo call) (own call)
    · rw [heftOf_append]
      omega

theorem mono
    (works : first.Works key heft second)
    (enough : heft ≤ more) :
    first.Works key more second := by
  obtain ⟨added, stack, own, light⟩ := works.stack
  exact { works with stack := ⟨added, stack, own, light.trans enough⟩ }

theorem trans_weightless
    (earlier : first.Works key 0 second)
    (later : second.Works key heft third) :
    first.Works key heft third :=
  (earlier.trans later).mono (Nat.le_of_eq (Nat.zero_add heft))

theorem setPhase
    (page : Page)
    (key : BindingId)
    {phase : Phase}
    (living : phase ≠ .destroyed) :
    page.Works key 0 (page.setPhase key phase) :=
  .changeBinding page fun binding =>
    ⟨phase, binding.attempt, binding.occupant, rfl, fun destroyed => (living destroyed).elim⟩

theorem notice
    (page : Page)
    (key : BindingId)
    (noticed : Notice)
    (fault : Option MountFault) :
    page.Works key 1 (page.notice key noticed fault) := by
  unfold Page.notice
  split
  · exact .refl page
  · next binding _ =>
      have recorded (heard : Bool) :
          page.Works key 0
            (page.record (.noticed key noticed binding.phase binding.wanted fault heard)) :=
        .record page (by simp [Event.isOf])
      dsimp only
      split
      · exact (recorded _).mono (by omega)
      · exact (recorded _).trans_weightless (.push _ (by simp [Call.isOrdinary]) (by simp))

theorem report (page : Page) (key : BindingId) (fault : MountFault) :
    page.Works key 4 (page.report key fault) :=
  .push page (by simp [Call.isOrdinary]) (by simp)

/-- A mount is a wish; what follows is the work of the life. -/
theorem mount_cases (page : Page) (key : BindingId) :
    page.phase key = .destroyed ∧ page.mount key = page ∨
      page.phase key ≠ .destroyed ∧ (page.setWanted key true).Works key 28 (page.mount key) := by
  unfold Page.mount
  split
  · next absent => exact .inl ⟨by simp [phase, absent], rfl⟩
  · next binding found =>
      rw [phase_of_found found]
      split
      · next destroyed => exact .inl ⟨destroyed, rfl⟩
      · next mounting => exact .inr ⟨by simp [mounting], .refl _⟩
      · next mounted => exact .inr ⟨by simp [mounted], .refl _⟩
      · next unmounted =>
          have begun :
              page.changeBinding key (fun earlier =>
                  { earlier with
                    wanted := true, phase := .mounting, attempt := binding.attempt + 1 }) =
                (page.setWanted key true).changeBinding key fun earlier =>
                  { earlier with phase := .mounting, attempt := binding.attempt + 1 } := by
            simp [Page.changeBinding, Page.setWanted, Table.modify_modify, Function.comp_def]
          refine .inr ⟨by simp [unmounted], ?_⟩
          dsimp only
          rw [begun]
          refine trans_weightless (.changeBinding _ fun earlier => ?_)
            (.push _ (by simp [Call.isOrdinary]) (by simp))
          exact ⟨.mounting, binding.attempt + 1, earlier.occupant, rfl, fun destroyed => by
            cases destroyed⟩

/-- An unmount is a wish; what follows is the work of the life. -/
theorem unmount_cases (page : Page) (key : BindingId) :
    page.phase key = .destroyed ∧ page.unmount key = page ∨
      page.phase key ≠ .destroyed ∧
        (page.setWanted key false).Works key 11 (page.unmount key) := by
  unfold Page.unmount
  split
  · next destroyed => exact .inl ⟨destroyed, rfl⟩
  · next mounted =>
      exact .inr ⟨by simp [mounted], .push _ (by simp [Call.isOrdinary]) (by simp)⟩
  · next living _ => exact .inr ⟨living, .refl _⟩

theorem fail (page : Page) (key : BindingId) (attempt : Nat) (fault : MountFault) :
    page.Works key 4 (page.fail key attempt fault) := by
  have unmounted : page.Works key 0 (page.setPhase key .unmounted) := .setPhase page key (by simp)
  exact (unmounted.trans_weightless (.record _ (by simp [Event.isOf]))).trans_weightless
    (.report _ key fault)

theorem consult
    (page : Page)
    (key : BindingId)
    (binding : Binding)
    (attempt : Nat)
    (question : Question)
    (stage : Stage)
    (light : stage.heft < heft) :
    page.Works key heft (page.consult key binding attempt question stage) := by
  have waiting : page.Works key stage.heft (page.push [.construct key attempt stage]) :=
    .push page (by simp [Call.isOrdinary]) (by simp)
  unfold Page.consult
  dsimp only
  split
  · exact waiting.mono (Nat.le_of_lt light)
  · next script _ =>
      have asked (page : Page) : page.Works key 1 (page.push [.script script 0 (some key)]) :=
        .push page (by simp [Call.isOrdinary]) (by simp)
      exact (waiting.trans (asked _)).mono light

theorem choose
    (page : Page)
    (key : BindingId)
    (binding : Binding)
    (attempt : Nat)
    (module : Module) :
    page.Works key 22 (page.choose key binding attempt module) := by
  unfold Page.choose
  split
  · exact (fail page key attempt _).mono (by omega)
  · dsimp only
    refine trans_weightless ?_ (consult _ key binding attempt _ _ (by simp))
    split
    · exact .refl page
    · exact .record page (by simp [Event.isOf])

theorem equip
    (page : Page)
    (key : BindingId)
    (binding : Binding)
    (attempt : Nat)
    (chosen : ConstructorId) :
    page.Works key 20 (page.equip key binding attempt chosen) := by
  unfold Page.equip
  split
  · exact (fail page key attempt _).mono (by omega)
  · exact (fail page key attempt _).mono (by omega)
  · exact (record page (by simp [Event.isOf])).trans_weightless
      (.push _ (by simp [Call.isOrdinary]) (by simp))

theorem build
    (page : Page)
    (key : BindingId)
    (binding : Binding)
    (attempt : Nat)
    (chosen : ConstructorId) :
    page.Works key 18 (page.build key binding attempt chosen) := by
  unfold Page.build
  split
  · exact (fail page key attempt _).mono (by omega)
  · dsimp only
    split
    · refine (trans_weightless ?_ (fail _ key attempt _)).mono (by omega)
      exact .recount page _ (Nat.le_refl _)
    · refine trans_weightless ?_ (consult _ key binding attempt _ _ (by simp))
      refine trans_weightless ?_ (.record _ (by simp [Event.isOf]))
      exact .recount page _ (Nat.le_succ _)

theorem moveIn (page : Page) (key : BindingId) (occupant : Occupant) :
    page.Works key 16 (page.moveIn key occupant) := by
  refine trans_weightless (.changeBinding page fun binding => ?_)
    (.push _ (by simp [Call.isOrdinary]) (by simp))
  exact ⟨.mounted, binding.attempt, some occupant, rfl, fun destroyed => by cases destroyed⟩

theorem construct (page : Page) (key : BindingId) (attempt : Nat) (stage : Stage) :
    page.Works key (stage.heft - 1) (page.construct key attempt stage) := by
  unfold Page.construct
  split
  · exact .refl page
  · cases stage with
    | choosing module => exact choose page key _ attempt module
    | equipping chosen => exact equip page key _ attempt chosen
    | building chosen => exact build page key _ attempt chosen
    | fitting occupant => exact moveIn page key occupant

theorem arrive
    (page : Page)
    (key : BindingId)
    (attempt : Nat)
    (outcome : Except MountFault Module) :
    page.Works key 24 (page.arrive key attempt outcome) := by
  unfold Page.arrive
  split
  · exact .refl page
  · split
    · split
      · exact (fail page key attempt _).mono (by omega)
      · exact consult page key _ attempt _ _ (by simp)
    · exact .refl page

theorem settle (page : Page) (key : BindingId) : page.Works key 11 (page.settle key) := by
  unfold Page.settle
  split
  · exact .refl page
  · exact .push page (by simp [Call.isOrdinary]) (by simp)

theorem teardown (page : Page) (key : BindingId) : page.Works key 10 (page.teardown key) := by
  unfold Page.teardown
  split
  · exact .push page (by simp [Call.isOrdinary]) (by simp)
  · exact .refl page

theorem dismantle (page : Page) (key : BindingId) : page.Works key 7 (page.dismantle key) := by
  unfold Page.dismantle
  split
  · exact .refl page
  · split
    · have vacated :
          page.Works key 6 ((page.changeBinding key fun binding =>
            { binding with occupant := none }).push [.vacated key]) := by
        refine trans_weightless (.changeBinding page fun binding => ?_)
          (.push _ (by simp [Call.isOrdinary]) (by simp))
        exact ⟨binding.phase, binding.attempt, none, rfl, id⟩
      dsimp only
      split
      · exact vacated.mono (by omega)
      · split
        · exact vacated.mono (by omega)
        · next destructor _ =>
            have asked (page : Page) :
                page.Works key 1 (page.push [.script destructor.script 0 (some key)]) :=
              .push page (by simp [Call.isOrdinary]) (by simp)
            exact (vacated.trans (.record _ (by simp [Event.isOf]))).trans (asked _)
    · exact .refl page

theorem vacated (page : Page) (key : BindingId) : page.Works key 5 (page.vacated key) :=
  (setPhase page key (by simp)).trans_weightless (.push _ (by simp [Call.isOrdinary]) (by simp))

/-- Carrying on with a call of a life at work leaves less to be done. -/
theorem carryOn
    (page : Page)
    {call : Call}
    (own : call.isOf key)
    (works : call.works) :
    ∃ heft, heft < call.heft ∧ page.Works key heft (page.carryOn call) := by
  have same := Call.subject?_of_isOf own
  cases call with
  | request | script | deliver | pin | hydrate | destroyEach | drive | launch | remount | retire
  | bury => cases works
  | notice other noticed fault =>
      cases same
      exact ⟨1, by simp, notice page key noticed fault⟩
  | arrive other attempt outcome =>
      cases same
      exact ⟨24, by simp, arrive page key attempt outcome⟩
  | construct other attempt stage =>
      cases same
      exact ⟨stage.heft - 1, by cases stage <;> simp, construct page key attempt stage⟩
  | settle other =>
      cases same
      exact ⟨11, by simp, settle page key⟩
  | teardown other =>
      cases same
      exact ⟨10, by simp, teardown page key⟩
  | dismantle other =>
      cases same
      exact ⟨7, by simp, dismantle page key⟩
  | vacated other =>
      cases same
      exact ⟨5, by simp, vacated page key⟩

end Works

end Page

end Hydration
