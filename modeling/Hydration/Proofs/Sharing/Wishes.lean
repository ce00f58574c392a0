import Hydration.Proofs.Passive.Relaying
import Hydration.Proofs.Watching.Tending

/-!
# Wishes that stay

Among idle scripts nothing that a binding does on its own changes what is wanted
of it or of another, nor the scene, and nothing that comes under way asks for
anything.  So all bindings but some stay wanted as they were, until one of them
is asked to mount or to unmount.
-/

namespace Hydration

/-- A call that a binding makes for itself, and that does not lead to its end, is inward. -/
theorem Call.isInward_of_subject?
    {call : Call}
    {key : BindingId}
    (own : call.subject? = some key)
    (gentle : call.ends = false) :
    call.isInward := by
  cases call with
  | request | deliver | hydrate | destroyEach => cases own
  | retire | bury => cases gentle
  | _ => rfl

namespace Page

variable {page after : Page} {key : BindingId} {binding : Binding}

/-- Idle scripts are calm. -/
theorem HasIdleScripts.calm (idle : page.HasIdleScripts) : page.HasCalmScripts := by
  intro script member action among
  rw [idle script member] at among
  cases among

/-- Bindings that are kept are as many as before. -/
theorem Keeps.size (keeps : page.Keeps after) : after.bindings.size = page.bindings.size := by
  have absent (key : BindingId) : after.bindings.size ≤ key ↔ page.bindings.size ≤ key := by
    rw [← Table.get?_eq_none_iff, ← Table.get?_eq_none_iff]
    refine ⟨fun none => ?_, keeps.made key⟩
    cases was : page.binding? key with
    | none => exact was
    | some binding =>
        obtain ⟨now, there, _⟩ := keeps.kept key binding was
        cases there.symm.trans none
  exact Nat.le_antisymm ((absent _).mpr (Nat.le_refl _)) ((absent _).mp (Nat.le_refl _))

/-- The scene, the scripts and all wishes are as before, and what came under way is inward. -/
structure Inner (before after : Page) : Prop extends before.Keeps after where
  unspent : after.scripts = before.scripts
  within : ∃ added, after.stack = added ++ before.stack ∧ ∀ call ∈ added, call.isInward

theorem Inner.refl (page : Page) : page.Inner page :=
  ⟨.refl page, rfl, [], rfl, by simp⟩

theorem Inner.push
    (page : Page)
    {calls : List Call}
    (inward : ∀ call ∈ calls, call.isInward) :
    page.Inner (page.push calls) := by
  refine ⟨.push page fun call member => ?_, rfl, calls, rfl, inward⟩
  have asksNothing := inward call member
  cases call with
  | request | retire | bury | destroyEach => cases asksNothing
  | _ => rfl

/-- What holds of all inward calls and of all calls under way holds of all calls afterwards. -/
theorem Inner.forall_calls
    {property : Call → Prop}
    (inner : page.Inner after)
    (ofInward : ∀ {call : Call}, call.isInward → property call)
    (before : ∀ call ∈ page.stack, property call) :
    ∀ call ∈ after.stack, property call := by
  obtain ⟨added, stack, inward⟩ := inner.within
  intro call member
  rw [stack] at member
  rcases List.mem_append.mp member with new | old
  · exact ofInward (inward call new)
  · exact before call old

/-- What keeps wishes and is confined to one binding is inward. -/
theorem Inner.of_confined
    {heft : Nat}
    (keeps : page.Keeps after)
    (scripts : after.scripts = page.scripts)
    (stack :
      ∃ added, after.stack = added ++ page.stack ∧
        (∀ call ∈ added, call.subject? = some key ∧ call.ends = false) ∧ heftOf added ≤ heft) :
    page.Inner after := by
  obtain ⟨added, pushed, own, _⟩ := stack
  exact ⟨keeps, scripts, added, pushed, fun call member =>
    Call.isInward_of_subject? (own call member).1 (own call member).2⟩

theorem Inner.driveNext (page : Page) (queue : QueueName) :
    page.Inner (page.driveNext queue) := by
  have keeps := Keeps.driveNext page queue
  obtain ⟨_, _, added, same, brings⟩ := driveNext_eq page queue
  rw [same] at keeps ⊢
  refine ⟨keeps, rfl, added, rfl, ?_⟩
  rcases brings with rfl | rfl | ⟨_, _, _, rfl⟩ <;> simp [Call.isInward]

/-- Carrying on with an inward call is inward if all scripts are idle. -/
theorem Inner.carryOn
    {call : Call}
    (idle : page.HasIdleScripts)
    (inward : call.isInward) :
    page.Inner (page.carryOn call) := by
  have own {key : BindingId}
      (isOf : call.isOf key)
      (gentle : call.ends = false) :
      page.Inner (page.carryOn call) := by
    obtain ⟨_, confined, _⟩ : ∃ heft, page.Confined key heft (page.carryOn call) ∧ _ :=
      Confined.carryOn isOf gentle
    exact .of_confined (.carryOn idle.calm inward) confined.scripts confined.stack
  cases call with
  | request | deliver | hydrate | retire | bury | destroyEach => cases inward
  | script script position subject =>
      rw [Page.carryOn, runScript_of_idle idle]
      exact .refl page
  | pin => exact .refl page
  | drive queue => exact .driveNext page queue
  | notice key | launch key | arrive key | construct key | settle key | teardown key
  | dismantle key | vacated key | remount key =>
      exact own (decide_eq_true (Eq.refl key)) rfl

/-- What a binding is told is wanted of it, and what follows is inward. -/
theorem Inner.obey
    (living : ∀ binding, page.binding? key = some binding → binding.phase ≠ .destroyed)
    (told : Bool) :
    (page.setWanted key told).Inner (page.obey (if told then .mount else .unmount) key) := by
  have confined := Confined.obey page key told
  refine .of_confined ?_ confined.scripts confined.stack
  cases found : page.binding? key with
  | none =>
      have unwished : page.setWanted key told = page := by
        have beyond : page.bindings.size ≤ key := (Table.get?_eq_none_iff _ _).mp found
        simp [setWanted, changeBinding, Table.modify, List.modify_eq_self beyond]
      have unheard : page.obey (if told then .mount else .unmount) key = page := by
        cases told <;> simp [Page.obey, mount, unmount, phase, found]
      rw [unwished, unheard]
      exact .refl page
  | some binding =>
      cases told with
      | true => exact .mount found (living binding found)
      | false => exact .unmount found (living binding found)

/-- A binding that was told something is wanted by it while only inward calls go on. -/
theorem Inner.wanted
    {told : Bool}
    (inner : (page.setWanted key told).Inner after)
    (found : after.binding? key = some binding) :
    binding.wanted = told := by
  obtain ⟨before, was, alike⟩ := inner.earlier found
  rw [setWanted, binding?_changeBinding, if_pos rfl] at was
  obtain ⟨_, _, rfl⟩ := Option.map_eq_some_iff.mp was
  exact alike.wanted

/-- All bindings live, and all but those that are `free` are wanted as `value` says. -/
structure Wanting (value : Bool) (free : BindingId → Prop) (page : Page) : Prop where
  idle : page.HasIdleScripts
  living : ∀ key binding, page.binding? key = some binding → binding.phase ≠ .destroyed
  wishes :
    ∀ key binding, page.binding? key = some binding → ¬ free key → binding.wanted = value

variable {value : Bool} {free : BindingId → Prop}

theorem Wanting.keep
    (wanting : page.Wanting value free)
    (inner : page.Inner after) :
    after.Wanting value free := by
  refine ⟨?_, ?_, ?_⟩
  · simpa only [HasIdleScripts, inner.unspent] using wanting.idle
  · intro key binding found destroyed
    obtain ⟨before, was, alike⟩ := inner.earlier found
    exact wanting.living key before was (alike.phase destroyed)
  · intro key binding found tight
    obtain ⟨before, was, alike⟩ := inner.earlier found
    exact alike.wanted.trans (wanting.wishes key before was tight)

/-- A binding need not be left out once it is wanted as all others are. -/
theorem Wanting.tighten
    (wanting : page.Wanting value fun other => other = key)
    (wanted : ∀ binding, page.binding? key = some binding → binding.wanted = value) :
    page.Wanting value fun _ => False := by
  refine ⟨wanting.idle, wanting.living, ?_⟩
  intro other binding found _
  by_cases same : other = key
  · subst same
    exact wanted binding found
  · exact wanting.wishes other binding found same

/-- A free binding may change in all but its phase. -/
theorem Wanting.changeBinding
    {change : Binding → Binding}
    (wanting : page.Wanting value free)
    (isFree : free key)
    (phase : ∀ binding, (change binding).phase = binding.phase) :
    (page.changeBinding key change).Wanting value free := by
  refine ⟨wanting.idle, ?_, ?_⟩
  · intro other now there
    rw [binding?_changeBinding] at there
    split at there
    · obtain ⟨before, was, rfl⟩ := Option.map_eq_some_iff.mp there
      rw [phase]
      exact wanting.living other before was
    · exact wanting.living other now there
  · intro other now there tight
    have different : other ≠ key := by
      rintro rfl
      exact tight isFree
    rw [binding?_changeBinding, if_neg different] at there
    exact wanting.wishes other now there tight

/-- Of a free binding anything may be wanted. -/
theorem Wanting.setWanted
    (wanting : page.Wanting value free)
    (isFree : free key)
    (told : Bool) :
    (page.setWanted key told).Wanting value free :=
  wanting.changeBinding isFree fun _ => rfl

@[simp] theorem size_setWanted (page : Page) (key : BindingId) (wanted : Bool) :
    (page.setWanted key wanted).bindings.size = page.bindings.size :=
  Table.size_modify _ _ _

end Page

end Hydration
