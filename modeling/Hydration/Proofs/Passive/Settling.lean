import Hydration.Proofs.Life.Reached
import Hydration.Proofs.Passive.Ordered
import Hydration.Proofs.Passive.Plan

/-!
# Bindings settle

If all scripts are idle then the calls of a binding that are on top of the stack
come to their end one after the other, and nothing else happens meanwhile: the
surroundings stay as they are, and no other binding lives on.
-/

namespace Hydration

/-- All scripts ask for nothing. -/
def Page.HasIdleScripts (page : Page) : Prop :=
  ∀ script ∈ page.scripts.entries, script.actions = []

namespace Life

/-- The calls of a binding are carried on one after the other until none is left. -/
inductive Settles (key : BindingId) : Life → Life → Prop where
  | done
      {life : Life}
      (idle : life.calls = []) :
      Settles key life life
  | carried
      {before middle after : Life}
      {call : Call}
      {rest : List Call}
      (calls : before.calls = call :: rest)
      (happened : Carried key call { before with calls := rest } middle)
      (later : Settles key middle after) :
      Settles key before after

variable {key : BindingId} {before after : Life}

theorem Settles.idle (settles : before.Settles key after) : after.calls = [] := by
  induction settles with
  | done idle => exact idle
  | carried _ _ _ inductionHypothesis => exact inductionHypothesis

theorem Settles.planned
    (settles : before.Settles key after)
    (planned : before.Planned key) :
    after.Planned key := by
  induction settles with
  | done => exact planned
  | carried calls happened _ inductionHypothesis =>
      exact inductionHypothesis (happened.planned calls planned)

end Life

namespace Page

/-- A page that is reached by going on step by step. -/
inductive Leads : Page → Page → Prop where
  | here (page : Page) : Leads page page
  | step
      {page after : Page}
      (onward : Leads page.step after) :
      Leads page after

variable {page after : Page} {key : BindingId}

theorem Leads.trans
    {middle : Page}
    (first : page.Leads middle)
    (second : middle.Leads after) :
    page.Leads after := by
  induction first with
  | here => exact second
  | step _ inductionHypothesis => exact .step (inductionHypothesis second)

/-- What a page leads to is reached by a run of the page. -/
theorem Leads.exists_run (leads : page.Leads after) :
    ∃ limit, Page.run limit page = after := by
  induction leads with
  | here => exact ⟨0, rfl⟩
  | @step page _ _ inductionHypothesis =>
      obtain ⟨limit, reached⟩ := inductionHypothesis
      by_cases rest : page.isAtRest
      · rw [step_of_rest rest] at reached
        exact ⟨limit, reached⟩
      · refine ⟨limit + 1, ?_⟩
        rw [Page.run, if_neg rest, reached]

/-- What a page leads to is passed before the page comes to rest. -/
theorem Leads.mem_trail
    {limit : Nat}
    (leads : page.Leads after)
    (rests : (Page.run limit page).isAtRest) :
    after ∈ Page.run limit page :: trail limit page := by
  induction leads generalizing limit with
  | here page =>
      cases limit with
      | zero => exact List.mem_cons_self
      | succ limit =>
          rw [Page.run, trail]
          split
          · exact List.mem_cons_self
          · exact List.mem_cons_of_mem _ (List.mem_append_right _ List.mem_cons_self)
  | @step page after _ inductionHypothesis =>
      by_cases rest : page.isAtRest
      · rw [step_of_rest rest] at inductionHypothesis
        exact inductionHypothesis rests
      · cases limit with
        | zero => exact (rest rests).elim
        | succ limit =>
            rw [Page.run, if_neg rest] at rests ⊢
            rw [trail, if_neg rest, ← List.cons_append]
            exact List.mem_append_left _ (inductionHypothesis rests)

/-- Whether a script has nothing to do. -/
def IsIdle (page : Page) (script : ScriptId) : Prop :=
  ∀ known, page.scripts.get? script = some known → known.actions = []

theorem HasIdleScripts.isIdle (idle : page.HasIdleScripts) (script : ScriptId) :
    page.IsIdle script :=
  fun known found => idle known (List.mem_of_getElem? found)

theorem runScript_of_isIdle
    {script : ScriptId}
    (idle : page.IsIdle script)
    (position : Nat)
    (subject : Option BindingId) :
    page.runScript script position subject = page := by
  have nothing :
      ((page.scripts.get? script).bind fun known => known.actions[position]?) = none := by
    cases found : page.scripts.get? script with
    | none => rfl
    | some known => simp [idle known found]
  simp only [runScript, nothing]

/-- An idle script does nothing. -/
theorem runScript_of_idle
    (idle : page.HasIdleScripts)
    (script : ScriptId)
    (position : Nat)
    (subject : Option BindingId) :
    page.runScript script position subject = page :=
  runScript_of_isIdle (idle.isIdle script) position subject

/-- A page on which the calls of a binding have come to their end, and nothing else happened. -/
structure Settles (key : BindingId) (outer : List Call) (page after : Page) : Prop
    extends page.Frames after where
  leads : page.Leads after
  stack : after.stack = outer
  own : (page.life key).Settles key (after.life key)
  others :
    ∀ other, other ≠ key → ∃ instances, after.life other = { page.life other with instances }

/-- What follows a call of the binding that is carried on. -/
theorem Settles.of_call
    {call : Call}
    {rest outer : List Call}
    (settles : page.step.Settles key outer after)
    (stack : page.stack = call :: rest)
    (own : call.isOf key)
    (present : (page.life key).present)
    (frames : page.Frames page.step) :
    page.Settles key outer after := by
  obtain ⟨calls, carried⟩ := step_carried stack own present
  refine ⟨frames.trans settles.toFrames, .step settles.leads, settles.stack,
    .carried calls carried settles.own, ?_⟩
  intro other different
  have foreign : call.isOf other = false := by
    by_contra mine
    have same : call.subject? = some other := Call.subject?_of_isOf (by simpa using mine)
    rw [Call.subject?_of_isOf own] at same
    exact different (Option.some.inj same).symm
  obtain ⟨instances, later⟩ := settles.others other different
  obtain ⟨between, _, same⟩ :=
    life_carryOn_other { page with stack := rest } own (Ne.symm different)
  refine ⟨instances, ?_⟩
  rw [later, step_of_stack stack, same, life_pop stack foreign]

/-- What follows an idle script that is taken off. -/
theorem Settles.of_script
    {script : ScriptId}
    {position : Nat}
    {subject : Option BindingId}
    {rest outer : List Call}
    (settles : { page with stack := rest }.Settles key outer after)
    (idle : page.HasIdleScripts)
    (stack : page.stack = .script script position subject :: rest) :
    page.Settles key outer after := by
  have popped : page.step = { page with stack := rest } := by
    have resting : ({ page with stack := rest } : Page).HasIdleScripts := idle
    rw [step_of_stack stack]
    exact runScript_of_idle resting script position subject
  have same (other : BindingId) :
      ({ page with stack := rest } : Page).life other = page.life other :=
    life_pop stack rfl
  refine ⟨⟨settles.scene, settles.scripts, settles.outlook⟩,
    .step (by rw [popped]; exact settles.leads), settles.stack, ?_, ?_⟩
  · rw [← same]
    exact settles.own
  · intro other different
    rw [← same]
    exact settles.others other different

/-- A call of a binding that settles leaves less to be done than it was itself. -/
theorem exists_lighter
    {call : Call}
    {rest : List Call}
    (stack : page.stack = call :: rest)
    (own : call.isOf key)
    (gentle : call.ends = false)
    (present : (page.life key).present)
    (planned : (page.life key).Planned key) :
    ∃ heft, heft < call.heft ∧
      ({ page with stack := rest } : Page).Confined key heft page.step := by
  rw [step_of_stack stack]
  obtain ⟨heft, confined, light⟩ := Confined.carryOn own gentle
  by_cases again : call = .remount key
  · subst again
    obtain ⟨calls, _⟩ := step_carried stack own present
    exact ⟨0, by simp, .remount_of_unwanted (planned.unwanted_of_leaves calls rfl)⟩
  · exact ⟨heft, light again, confined⟩

/-- The calls of a binding that come first on the stack come to their end. -/
theorem settles
    {inner outer : List Call}
    (idle : page.HasIdleScripts)
    (stack : page.stack = inner ++ outer)
    (mine : ∀ call ∈ inner, call.subject? = some key ∧ call.ends = false)
    (foreign : ∀ call ∈ outer, call.isOf key = false)
    (present : (page.life key).present)
    (planned : (page.life key).Planned key) :
    ∃ after, page.Settles key outer after := by
  induction weight : heftOf inner using Nat.strong_induction_on generalizing page inner with
  | _ heft inductionHypothesis =>
      cases inner with
      | nil =>
          have silent : (page.life key).calls = [] := by
            rw [life, stack]
            exact List.filter_eq_nil_iff.mpr fun call member => by simp [foreign call member]
          exact ⟨page, .refl page, .here page, stack, .done silent, fun _ _ => ⟨_, rfl⟩⟩
      | cons call rest =>
          obtain ⟨own, gentle⟩ := mine call List.mem_cons_self
          have later : ∀ call ∈ rest, call.subject? = some key ∧ call.ends = false :=
            fun call member => mine call (List.mem_cons_of_mem _ member)
          rw [heftOf_cons] at weight
          rw [List.cons_append] at stack
          rcases Call.isOf_or_script own with isOf | ⟨script, position, rfl⟩
          · obtain ⟨calls, carried⟩ := step_carried stack isOf present
            obtain ⟨less, light, confined⟩ := exists_lighter stack isOf gentle present planned
            obtain ⟨added, pushed, owned, total⟩ := confined.stack
            have continued : page.step.stack = (added ++ rest) ++ outer := by
              rw [pushed, List.append_assoc]
            have lighter : heftOf (added ++ rest) < heft := by
              rw [heftOf_append]
              omega
            have idleNext : page.step.HasIdleScripts := by
              simpa only [HasIdleScripts, confined.scripts] using idle
            obtain ⟨after, settles⟩ :=
              inductionHypothesis _ lighter idleNext continued
                (fun call member => (List.mem_append.mp member).elim (owned call) (later call))
                (by rw [carried.present_eq]; exact present) (carried.planned calls planned) rfl
            have frames : page.Frames page.step :=
              ⟨confined.scene, confined.scripts, confined.outlook⟩
            exact ⟨after, settles.of_call stack isOf present frames⟩
          · have lighter : heftOf rest < heft := by
              rw [← weight, Call.heft]
              omega
            have resting : ({ page with stack := rest ++ outer } : Page).HasIdleScripts := idle
            have same : ({ page with stack := rest ++ outer } : Page).life key = page.life key :=
              life_pop stack rfl
            obtain ⟨after, settles⟩ :=
              inductionHypothesis _ lighter resting rfl later (by rwa [same]) (by rwa [same]) rfl
            exact ⟨after, settles.of_script idle stack⟩

end Page

end Hydration
