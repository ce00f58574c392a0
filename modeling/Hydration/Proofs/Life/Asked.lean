import Hydration.Proofs.Life.Step

/-!
# What is asked of a binding

What happens to other bindings and to the surroundings of a binding changes
neither its phase nor what is wanted of it.  Nor do a start and an end that are
asked for, for the time being: a mount begins an attempt at most, and an unmount
leaves the phase to the calls that follow.
-/

namespace Hydration

/-- The phase of a binding and what is wanted of it. -/
def Life.stance (life : Life) : Phase × Bool :=
  (life.phase, life.wanted)

/-- Whether a call asks for a mount or an unmount of a binding. -/
def Call.Wishes (key : BindingId) (call : Call) : Prop :=
  call = .request (.bind .mount key) ∨ call = .request (.bind .unmount key)

namespace Page

variable {key : BindingId}

theorem life_stance_congr
    {page changed : Page}
    (bindings : changed.bindings = page.bindings) :
    (changed.life key).stance = (page.life key).stance := by
  simp only [Life.stance, life, binding?, bindings]

theorem life_stance_changeBinding
    (page : Page)
    (other : BindingId)
    {change : Binding → Binding}
    (phase : ∀ binding, (change binding).phase = binding.phase)
    (wanted : ∀ binding, (change binding).wanted = binding.wanted) :
    ((page.changeBinding other change).life key).stance = (page.life key).stance := by
  simp only [Life.stance, life, binding?_changeBinding]
  split
  · cases page.binding? key with
    | none => rfl
    | some binding => simp [phase, wanted]
  · rfl

/-- Starting a binding gives it a watch at most. -/
theorem life_stance_start (page : Page) (other : BindingId) :
    ((page.start other).life key).stance = (page.life key).stance := by
  have starts := page.starts other
  generalize page.start other = after at starts ⊢
  cases starts with
  | late | unread | refused => rfl
  | @watched _ _ scene watch =>
      have given : ((page.giveWatch other scene watch).life key).stance = (page.life key).stance :=
        life_stance_changeBinding _ other (fun _ => rfl) fun _ => rfl
      exact given

theorem life_stance_obey
    (page : Page)
    {verb : Verb}
    {other : BindingId}
    (unasked : ¬ Call.Wishes key (.request (.bind verb other))) :
    ((page.obey verb other).life key).stance = (page.life key).stance := by
  cases verb with
  | start => exact life_stance_start page other
  | mount =>
      have different : other ≠ key := by
        rintro rfl
        exact unasked (.inl rfl)
      exact congrArg Life.stance (life_mount_other page different)
  | unmount =>
      have different : other ≠ key := by
        rintro rfl
        exact unasked (.inr rfl)
      exact congrArg Life.stance (life_unmount_other page different)
  | destroy =>
      apply life_stance_congr
      simp only [obey, destroy]
      split <;> rfl

theorem life_stance_answer
    (page : Page)
    {request : Request}
    (unasked : ¬ Call.Wishes key (.request request)) :
    ((page.answer request).life key).stance = (page.life key).stance := by
  cases request with
  | bind verb other => exact life_stance_obey page unasked
  | drive queue =>
      apply life_stance_congr
      simp only [answer, drive]
      split <;> rfl
  | _ => exact life_stance_congr rfl

/-- A call that is not of a binding and wishes nothing of it leaves its phase and its wish. -/
theorem life_stance_carryOn
    (page : Page)
    {call : Call}
    (foreign : call.isOf key = false)
    (unasked : ¬ call.Wishes key) :
    ((page.carryOn call).life key).stance = (page.life key).stance := by
  have owned {other : BindingId} (own : call.isOf other) :
      ((page.carryOn call).life key).stance = (page.life key).stance := by
    have different : other ≠ key := by
      rintro rfl
      cases foreign.symm.trans own
    obtain ⟨_, _, same⟩ := life_carryOn_other page own different
    rw [same]
    rfl
  cases call with
  | request request => exact life_stance_answer page unasked
  | script script position subject =>
      exact congrArg Life.stance (life_runScript page script position subject)
  | deliver monitors => exact congrArg Life.stance (life_deliver page monitors)
  | pin => rfl
  | hydrate hooks elements =>
      simp only [carryOn, hydrateNext]
      split
      · rfl
      · next element rest =>
        split
        · rfl
        · next label _ =>
            have fresh : (page.bindingOf hooks element label).IsFresh :=
              Binding.isFresh_fresh label _ element _ hooks
            have stance : (((page.push [.hydrate hooks rest]).addBinding
                (page.bindingOf hooks element label)).life key).stance =
                  (page.life key).stance := by
              rcases life_addBinding _ fresh with same | made
              · rw [same]
                rfl
              · rw [made]
                rfl
            exact stance
  | destroyEach bindings => exact congrArg Life.stance (life_destroyNext page bindings)
  | drive queue =>
      obtain ⟨_, _, _, same, _⟩ := driveNext_eq page queue
      rw [carryOn, same]
      exact life_stance_congr rfl
  | notice other | launch other | arrive other | construct other | settle other | teardown other
  | dismantle other | vacated other | remount other | retire other | bury other =>
      exact owned (decide_eq_true (Eq.refl other))

end Page

end Hydration
