import Hydration.Proofs.Life.Sheltered
import Hydration.Proofs.Passive.Confined

/-!
# Bindings whose scripts ask for nothing

If no script that is run for a binding does anything, then nobody comes between
its calls: those under way lie together on top of the stack.  The binding is
disturbed only while none of them is left.
-/

namespace Hydration

/-- Whether a script that is run for a binding is about to do an action. -/
def Page.Acts (page : Page) (key : BindingId) : Prop :=
  ∃ script position outer action,
    page.stack = .script script position (some key) :: outer ∧
      ((page.scripts.get? script).bind fun known => known.actions[position]?) = some action ∧
      0 < action.remaining ∧ Page.Action.isFor action ((page.binding? key).map Binding.label)

/-- Whether calls with a binding as their subject come before all others. -/
def Call.Ordered (key : BindingId) (calls : List Call) : Prop :=
  calls.Pairwise fun inner outer => outer.subject? = some key → inner.subject? = some key

/-- The calls pushed on the way from one page to another are in order. -/
def Page.Stacks (key : BindingId) (before after : Page) : Prop :=
  ∃ added, after.stack = added ++ before.stack ∧ Call.Ordered key added

namespace Page.Stacks

variable {key : BindingId} {page after : Page}

theorem of_eq (stack : after.stack = page.stack) : page.Stacks key after :=
  ⟨[], stack, .nil⟩

/-- Calls with the same subject are in order. -/
theorem of_subject
    (subject : Option BindingId)
    (added : List Call)
    (stack : after.stack = added ++ page.stack)
    (same : ∀ call ∈ added, call.subject? = subject) :
    page.Stacks key after := by
  refine ⟨added, stack, List.pairwise_of_forall_mem_list ?_⟩
  intro inner first outer second own
  rw [same inner first, ← same outer second, own]

theorem of_confined
    {other : BindingId}
    {heft : Nat}
    (confined : page.Confined other heft after) :
    page.Stacks key after := by
  obtain ⟨added, stack, own, _⟩ := confined.stack
  exact of_subject (some other) added stack fun call member => (own call member).1

theorem obey (page : Page) (verb : Verb) (other : BindingId) :
    page.Stacks key (page.obey verb other) := by
  cases verb with
  | mount => exact of_confined (.mount page other)
  | unmount => exact of_confined (.unmount page other)
  | destroy =>
      simp only [Page.obey, Page.destroy]
      split
      · exact of_eq rfl
      · exact of_subject (some other) _ rfl (by simp)
  | start =>
      have starts := page.starts other
      rw [Page.obey]
      generalize page.start other = after at starts ⊢
      cases starts with
      | late => exact of_eq rfl
      | unread => exact of_confined (.of_works (.report page other _))
      | refused => exact of_subject (some other) _ rfl (by simp)
      | watched =>
          refine of_subject none _ rfl ?_
          split <;> simp

theorem answer (page : Page) (request : Request) :
    page.Stacks key (page.answer request) := by
  cases request with
  | bind verb other => exact obey page verb other
  | drive queue =>
      simp only [Page.answer, Page.drive]
      split
      · exact of_eq rfl
      · exact of_subject none _ rfl (by simp)
  | toggle | resize | reveal | hydrate | destroyAll =>
      exact of_subject none _ rfl (by simp)
  | mark | append | release | cancel | dropSubscription | dropMonitor => exact of_eq rfl

/-- A script that is not run for a binding brings nothing of the binding under way. -/
theorem runScript
    (page : Page)
    (script : ScriptId)
    (position : Nat)
    {subject : Option BindingId}
    (foreign : subject ≠ some key) :
    page.Stacks key (page.runScript script position subject) := by
  have foreign (requests : List Request) : Call.Ordered key
      (requests.map Call.request ++ [Call.script script (position + 1) subject]) := by
    refine List.pairwise_of_forall_mem_list fun _ _ outer member own => ?_
    rcases List.mem_append.mp member with asked | waiting
    · obtain ⟨request, _, rfl⟩ := List.mem_map.mp asked
      cases own
    · rw [List.mem_singleton.mp waiting] at own
      exact (foreign own).elim
  have plays := page.plays script position subject
  generalize page.runScript script position subject = after at plays ⊢
  cases plays with
  | finished => exact of_eq rfl
  | skips => exact ⟨_, rfl, foreign []⟩
  | plays => exact ⟨_, rfl, foreign _⟩

theorem deliver (page : Page) (monitors : List MonitorId) :
    page.Stacks key (page.deliver monitors) := by
  cases monitors with
  | nil => exact of_eq rfl
  | cons monitor rest =>
      simp only [Page.deliver]
      split
      · exact of_subject none [.deliver rest] rfl (by simp)
      · next listener _ =>
          cases listener with
          | host subscription script =>
              exact of_subject none [.script script 0 none, .pin [monitor], .deliver rest] rfl
                (by simp)
          | watch watch =>
              simp only [Page.hear]
              split
              · exact of_subject none [.pin [monitor], .deliver rest] rfl
                  (by simp)
              · next entry _ =>
                  split
                  · exact of_subject none [.pin [monitor], .deliver rest]
                      rfl (by simp)
                  · next audience _ =>
                      cases audience with
                      | binding other =>
                          exact of_subject
                            none
                            [.request _, .pin entry.monitors, .pin [monitor], .deliver rest] rfl
                            (by simp)
                      | host handle round =>
                          exact of_subject
                            none [.pin entry.monitors, .pin [monitor], .deliver rest] rfl (by simp)

theorem driveNext (page : Page) (queue : QueueName) :
    page.Stacks key (page.driveNext queue) := by
  obtain ⟨_, _, added, same, brings⟩ := driveNext_eq page queue
  rw [same]
  refine ⟨added, rfl, ?_⟩
  rcases brings with rfl | rfl | ⟨_, _, _, rfl⟩ <;> simp [Call.Ordered]

theorem hydrateNext (page : Page) (hooks : Hooks) (elements : List ElementId) :
    page.Stacks key (page.hydrateNext hooks elements) := by
  unfold Page.hydrateNext
  split
  · exact of_eq rfl
  · next rest =>
      dsimp only
      split
      · exact of_subject none [.hydrate hooks rest] rfl (by simp)
      · exact of_subject none [.request _, .hydrate hooks rest] rfl
          (by simp)

/-- All that a call of a binding brings under way is the binding's own. -/
theorem own
    {other : BindingId}
    {call : Call}
    (page : Page)
    (own : call.isOf other) :
    ∃ added, (page.carryOn call).stack = added ++ page.stack ∧
      ∀ call ∈ added, call.subject? = some other := by
  by_cases gentle : call.ends = false
  · obtain ⟨_, confined, _⟩ := Page.Confined.carryOn own gentle
    obtain ⟨added, stack, owned, _⟩ := confined.stack
    exact ⟨added, stack, fun call member => (owned call member).1⟩
  · cases call with
    | retire binding =>
        obtain rfl : binding = other := of_decide_eq_true own
        simp only [Page.carryOn, Page.retire]
        split
        · exact ⟨[.teardown binding, .bury binding], rfl, by simp⟩
        · exact ⟨[.bury binding], rfl, by simp⟩
    | bury binding =>
        obtain rfl : binding = other := of_decide_eq_true own
        refine ⟨[.notice binding .didDestroy none, .notice binding .onDestroy none], ?_, by simp⟩
        simp only [Page.carryOn, Page.bury]
        split <;> rfl
    | _ => exact (gentle rfl).elim

/-- A call that does not have the binding as its subject stacks calls in order. -/
theorem carryOn
    {call : Call}
    (page : Page)
    (foreign : call.subject? ≠ some key) :
    page.Stacks key (page.carryOn call) := by
  have owned {other : BindingId} (isOf : call.isOf other) :
      page.Stacks key (page.carryOn call) := by
    obtain ⟨added, stack, same⟩ := own page isOf
    exact of_subject (some other) added stack same
  cases call with
  | request request => exact answer page request
  | script script position subject => exact runScript page script position foreign
  | deliver monitors => exact deliver page monitors
  | pin => exact of_eq rfl
  | hydrate hooks elements => exact hydrateNext page hooks elements
  | destroyEach bindings =>
      cases bindings with
      | nil => exact of_eq rfl
      | cons first rest =>
          exact of_subject none [.request (.bind .destroy first), .destroyEach rest] rfl (by simp)
  | drive queue => exact driveNext page queue
  | notice other | launch other | arrive other | construct other | settle other | teardown other
  | dismantle other | vacated other | remount other | retire other | bury other =>
      exact owned (decide_eq_true (Eq.refl other))

end Page.Stacks

namespace Page

variable {key : BindingId} {page : Page} {call : Call} {outer : List Call}

/-- A script that does nothing leaves at most the rest of itself. -/
theorem stack_runScript_of_idle
    {script : ScriptId}
    {position : Nat}
    (stack : page.stack = .script script position (some key) :: outer)
    (passive : ¬ page.Acts key) :
    page.step.stack = outer ∨
      page.step.stack = .script script (position + 1) (some key) :: outer := by
  rw [step_of_stack stack]
  have plays := Page.plays { page with stack := outer } script position (some key)
  rw [carryOn]
  generalize Page.runScript _ script position (some key) = after at plays ⊢
  cases plays with
  | finished => exact .inl rfl
  | skips => exact .inr rfl
  | @plays known action stored here suits left =>
      have chosen : ((page.scripts.get? script).bind fun known => known.actions[position]?) =
          some action :=
        Option.bind_eq_some_iff.mpr ⟨known, stored, here⟩
      exact (passive ⟨script, position, outer, action, stack, chosen, left, suits⟩).elim

/-- While no script of a binding does anything its calls stay together on top. -/
theorem ordered_step
    (ordered : Call.Ordered key page.stack)
    (passive : ¬ page.Acts key) :
    Call.Ordered key page.step.stack := by
  cases stack : page.stack with
  | nil =>
      rwa [step_of_nil stack]
  | cons call outer =>
      rw [stack] at ordered
      obtain ⟨first, others⟩ := List.pairwise_cons.mp ordered
      by_cases own : call.subject? = some key
      · rcases Call.isOf_or_script own with isOf | ⟨script, position, rfl⟩
        · obtain ⟨added, pushed, same⟩ := Stacks.own { page with stack := outer } isOf
          rw [step_of_stack stack, pushed]
          refine List.pairwise_append.mpr ⟨?_, others, fun inner new _ _ _ => same inner new⟩
          exact List.pairwise_of_forall_mem_list fun inner new _ _ _ => same inner new
        · rcases stack_runScript_of_idle stack passive with left | left
          · rw [left]
            exact others
          · rw [left]
            exact List.pairwise_cons.mpr ⟨fun _ _ _ => rfl, others⟩
      · have foreign : ∀ later ∈ outer, later.subject? ≠ some key :=
          fun later member isOwn => own (first later member isOwn)
        obtain ⟨added, pushed, inOrder⟩ := Stacks.carryOn { page with stack := outer } own
        rw [step_of_stack stack, pushed]
        exact List.pairwise_append.mpr
          ⟨inOrder, others, fun _ _ later member isOwn => (foreign later member isOwn).elim⟩

/-- Where the calls of a binding come first, another call on top means that there is none. -/
theorem calls_of_ordered
    (ordered : Call.Ordered key page.stack)
    (stack : page.stack = call :: outer)
    (foreign : call.subject? ≠ some key) :
    (page.life key).calls = [] := by
  rw [stack] at ordered
  obtain ⟨first, _⟩ := List.pairwise_cons.mp ordered
  rw [life, stack, List.filter_eq_nil_iff]
  intro other member own
  have isOwn := Call.subject?_of_isOf own
  rcases List.mem_cons.mp member with rfl | later
  · exact foreign isOwn
  · exact foreign (first other later isOwn)

end Page

namespace Run

variable {free : Move → Prop} {start page : Page} {passed : List Page} {key : BindingId}

theorem ordered
    (begins : start.Begins)
    (run : Run free start passed page)
    (passive : ∀ earlier ∈ passed, ¬ earlier.Acts key) :
    Call.Ordered key page.stack := by
  induction run with
  | begin =>
      rw [begins.rest]
      exact .nil
  | @move _ page move _ rest _ _ =>
      have empty := Page.stack_of_rest rest
      cases move with
      | ask request => simp [Page.move, Page.push, empty, Call.Ordered]
      | _ => exact empty ▸ List.Pairwise.nil
  | step _ inductionHypothesis =>
      refine Page.ordered_step (inductionHypothesis fun earlier member => ?_) ?_
      · exact passive earlier (List.mem_cons_of_mem _ member)
      · exact passive _ List.mem_cons_self

/-- A binding whose scripts ask for nothing is disturbed only while none of its calls is left. -/
theorem undisturbed
    (begins : start.Begins)
    (run : Run free start passed page)
    (passive : ∀ earlier ∈ passed, ¬ earlier.Acts key) :
    Life.Sheltered key (fun life => life.calls = []) (fun _ _ => True) (page.life key) := by
  refine run.sheltered begins (fun _ => id) ?_ fun _ _ _ _ _ _ => trivial
  intro earlier member call outer stack foreign
  by_cases own : call.subject? = some key
  · rcases Call.isOf_or_script own with isOf | ⟨script, position, rfl⟩
    · cases foreign.symm.trans isOf
    · right
      rw [Page.step_of_stack stack]
      have taken : ({ earlier with stack := outer } : Page).life key = earlier.life key := by
        simp [Page.life, stack, Call.isOf, Page.binding?, Page.importsOf]
      exact (Page.life_runScript _ script position (some key)).trans taken
  · obtain ⟨_, before, within⟩ := run.moment_within (List.mem_cons_of_mem _ member)
    have ordered := before.ordered begins fun page member => passive page (within member)
    exact .inl (Page.calls_of_ordered ordered stack own)

end Run

end Hydration
