import Hydration.Proofs.Life.Ending

/-!
# A binding ends once, unless its end is asked for in the midst of its calls

An end looks at the phase when it is asked for and not again when it comes about.
So an end that is asked for by a hook, a callback, a constructor or a destructor
of the same binding is followed by whatever the interrupted call still has to
tell, which may be another end.  Without such an interruption the announcements
of an end are each made once, and the last of them is the last word on the
binding.
-/

namespace Hydration

/-- Whether a call asks for the end of a binding. -/
def Call.demandsEnd (key : BindingId) : Call → Bool
  | request (.bind .destroy binding) => binding = key
  | _ => false

/--
The end of a binding is asked for, and it comes in the midst of a call of the
binding that goes on to tell or to run something afterwards.
-/
def Page.Interrupts (page : Page) (key : BindingId) : Prop :=
  page.stack.head?.any (Call.demandsEnd key) ∧ page.phase key ≠ .destroyed ∧
    ∃ call ∈ page.stack, call.isOf key ∧ call.persists

instance (page : Page) (key : BindingId) : Decidable (page.Interrupts key) :=
  inferInstanceAs (Decidable (_ ∧ _ ∧ _))

/--
The end of a binding was announced at most once, in each of the three ways, and
the last of the announcements was the last word: nothing was told and nothing was
run afterwards, and nothing is left to be told or run.
-/
structure Page.EndsOnce (page : Page) (key : BindingId) : Prop where
  once : ∀ noticed : Notice, noticed.isEnding →
    page.history.countP (Event.tells key noticed) ≤ 1
  last : page.history.Pairwise fun newer older =>
    older.tells key .onDestroy → newer.isOf key = false
  quiet : (∃ event ∈ page.history, event.tells key .onDestroy) →
    page.phase key = .destroyed ∧
      ∀ call ∈ page.stack, call.isOf key → call.persists = false

/-- The calls that come under way announce no end of a binding. -/
def Page.Spares (key : BindingId) (before after : Page) : Prop :=
  ∃ added, (after.life key).calls = added ++ (before.life key).calls ∧
    ∀ left ∈ added, left.isEnding = false

namespace Page.Spares

variable {key : BindingId} {page after : Page}

theorem of_calls (same : (after.life key).calls = (page.life key).calls) :
    page.Spares key after :=
  ⟨[], same, by simp⟩

theorem of_life (same : after.life key = page.life key) : page.Spares key after :=
  of_calls (congrArg Life.calls same)

theorem of_stack
    (added : List Call)
    (stack : after.stack = added ++ page.stack)
    (plain : ∀ left ∈ added, left.isEnding = false) :
    page.Spares key after := by
  refine ⟨added.filter (Call.isOf key), ?_, fun left member => ?_⟩
  · simp only [Page.life, stack, List.filter_append]
  · exact plain left (List.mem_filter.mp member).1

theorem report (page : Page) (other : BindingId) (fault : MountFault) :
    page.Spares key (page.report other fault) :=
  of_stack [.notice other .mountError _, .notice other .onMountError _] rfl
    (by simp [Call.isEnding, Notice.isEnding])

theorem start (page : Page) (other : BindingId) : page.Spares key (page.start other) := by
  have starts := page.starts other
  generalize page.start other = after at starts ⊢
  cases starts with
  | late => exact of_calls rfl
  | unread => exact report page other _
  | @refused _ _ scene => exact report { page with scene } other _
  | watched =>
      refine of_stack _ rfl ?_
      split <;> simp [Call.isEnding]

theorem mount (page : Page) (other : BindingId) : page.Spares key (page.mount other) := by
  unfold Page.mount
  split
  · exact of_calls rfl
  · split
    · exact of_calls rfl
    · exact of_calls rfl
    · exact of_calls rfl
    · exact of_stack [.notice other .willMount none, .launch other _] rfl
        (by simp [Call.isEnding, Notice.isEnding])

theorem unmount (page : Page) (other : BindingId) : page.Spares key (page.unmount other) := by
  unfold Page.unmount
  split
  · exact of_calls rfl
  · exact of_stack [.teardown other] rfl (by simp [Call.isEnding])
  · exact of_calls rfl

theorem answer
    (page : Page)
    {request : Request}
    (unasked : request ≠ .bind .destroy key) :
    page.Spares key (page.answer request) := by
  cases request with
  | bind verb other =>
      cases verb with
      | start => exact start page other
      | mount => exact mount page other
      | unmount => exact unmount page other
      | destroy =>
          have different : other ≠ key := by
            rintro rfl
            exact unasked rfl
          exact of_life (life_destroy_other page different)
  | drive queue =>
      simp only [Page.answer, Page.drive]
      split
      · exact of_calls rfl
      · exact of_stack [.drive queue] rfl (by simp [Call.isEnding])
  | toggle | resize | reveal | hydrate | destroyAll =>
      exact of_stack [_] rfl (by simp [Call.isEnding])
  | mark | append | release | cancel | dropSubscription | dropMonitor => exact of_calls rfl

theorem hydrateNext (page : Page) (hooks : Hooks) (elements : List ElementId) :
    page.Spares key (page.hydrateNext hooks elements) := by
  unfold Page.hydrateNext
  split
  · exact of_calls rfl
  · dsimp only
    split
    · exact of_stack [.hydrate hooks _] rfl (by simp [Call.isEnding])
    · exact of_stack [.request _, .hydrate hooks _] rfl (by simp [Call.isEnding])

theorem driveNext (page : Page) (queue : QueueName) :
    page.Spares key (page.driveNext queue) := by
  obtain ⟨_, _, added, same, brings⟩ := driveNext_eq page queue
  rw [same]
  refine of_stack added rfl ?_
  rcases brings with rfl | rfl | ⟨_, _, _, rfl⟩ <;> simp [Call.isEnding]

/-- Only a binding's own calls and the request for its end announce its end. -/
theorem carryOn
    (page : Page)
    {call : Call}
    (foreign : call.isOf key = false)
    (unasked : call.demandsEnd key = false) :
    page.Spares key (page.carryOn call) := by
  have owned {other : BindingId} (own : call.isOf other) :
      page.Spares key (page.carryOn call) := by
    have different : other ≠ key := by
      rintro rfl
      cases foreign.symm.trans own
    obtain ⟨_, _, same⟩ := life_carryOn_other page own different
    exact of_calls (by rw [same])
  cases call with
  | request request =>
      refine answer page fun same => ?_
      rw [same, Call.demandsEnd, decide_eq_false_iff_not] at unasked
      exact unasked rfl
  | script script position subject => exact of_life (life_runScript page script position subject)
  | deliver monitors => exact of_life (life_deliver page monitors)
  | pin => exact of_calls rfl
  | hydrate hooks elements => exact hydrateNext page hooks elements
  | destroyEach bindings => exact of_life (life_destroyNext page bindings)
  | drive queue => exact driveNext page queue
  | notice other | launch other | arrive other | construct other | settle other | teardown other
  | dismantle other | vacated other | remount other | retire other | bury other =>
      exact owned (decide_eq_true (Eq.refl other))

end Page.Spares

namespace Page

variable {key : BindingId} {page : Page} {call : Call} {outer : List Call}

/-- The request for an end puts the first announcement and the end itself under way. -/
theorem calls_step_of_demandsEnd
    (stack : page.stack = call :: outer)
    (demands : call.demandsEnd key)
    (living : page.phase key ≠ .destroyed) :
    (page.step.life key).calls =
      .notice key .willDestroy none :: .retire key :: (page.life key).calls := by
  rw [step_of_stack stack]
  cases call with
  | request request =>
      cases request with
      | bind verb binding =>
          cases verb with
          | destroy =>
              obtain rfl : binding = key := of_decide_eq_true demands
              have living : ({ page with stack := outer } : Page).phase binding ≠ .destroyed :=
                living
              simp [carryOn, answer, obey, destroy, living, life, push, Call.isOf, stack]
          | _ => cases demands
      | _ => cases demands
  | _ => cases demands

/-- The end of a binding comes under way only when it is asked for. -/
theorem demandsEnd_of_calls_step
    (stack : page.stack = call :: outer)
    (foreign : call.isOf key = false)
    (announced : (page.step.life key).calls =
      .notice key .willDestroy none :: .retire key :: (page.life key).calls) :
    call.demandsEnd key ∧ page.phase key ≠ .destroyed := by
  have taken : (({ page with stack := outer } : Page).life key).calls = (page.life key).calls := by
    simp [life, stack, foreign]
  rw [step_of_stack stack] at announced
  have demands : call.demandsEnd key := by
    refine Bool.of_not_eq_false fun unasked => ?_
    obtain ⟨added, calls, plain⟩ :=
      Spares.carryOn { page with stack := outer } foreign unasked
    rw [announced, taken] at calls
    have same : [.notice key .willDestroy none, .retire key] = added :=
      List.append_cancel_right calls
    cases plain (.retire key) (same ▸ by simp)
  refine ⟨demands, fun ended => ?_⟩
  cases call with
  | request request =>
      cases request with
      | bind verb binding =>
          cases verb with
          | destroy =>
              obtain rfl : binding = key := of_decide_eq_true demands
              have ended : ({ page with stack := outer } : Page).phase binding = .destroyed :=
                ended
              simp only [carryOn, answer, obey, destroy, ended, if_true, taken] at announced
              have longer := congrArg List.length announced
              simp only [List.length_cons] at longer
              omega
          | _ => cases demands
      | _ => cases demands
  | _ => cases demands

theorem interrupts_iff (stack : page.stack = call :: outer) :
    page.Interrupts key ↔
      call.demandsEnd key ∧ page.phase key ≠ .destroyed ∧
        ∃ under ∈ (page.life key).calls, under.persists := by
  simp only [Interrupts, stack, List.head?_cons, Option.any_some, life, List.mem_filter]
  refine and_congr_right fun _ => and_congr_right fun _ => exists_congr fun under => ?_
  rw [and_assoc]

theorem isOf_of_demandsEnd (demands : call.demandsEnd key) : call.isOf key = false := by
  cases call with
  | request => rfl
  | _ => cases demands

end Page

namespace Run

variable {free : Move → Prop} {start page : Page} {passed : List Page} {key : BindingId}

/-- As long as no end interrupts a call, the life of a binding is orderly. -/
theorem orderly
    (begins : start.Begins)
    (run : Run free start passed page)
    (uninterrupted : ∀ earlier ∈ passed, ¬ earlier.Interrupts key) :
    (page.life key).Orderly key ∧ (page.life key).Closed key := by
  induction run with
  | begin =>
      obtain ⟨_, _, _, _, calls, _, events⟩ := begins.life key
      constructor
      · constructor <;> simp [calls, events]
      · simp [Life.Closed, calls, events]
  | @move passed page move _ rest _ inductionHypothesis =>
      obtain ⟨orderly, closed⟩ := inductionHypothesis fun earlier member =>
        uninterrupted earlier (List.mem_cons_of_mem _ member)
      have disturbed := page.disturbed_move move key
      refine ⟨disturbed.orderly orderly closed fun _ => ?_, disturbed.closed closed⟩
      simp [Page.calls_of_rest rest key]
  | @step passed page before inductionHypothesis =>
      obtain ⟨orderly, closed⟩ := inductionHypothesis fun earlier member =>
        uninterrupted earlier (List.mem_cons_of_mem _ member)
      have calm := uninterrupted page List.mem_cons_self
      cases stack : page.stack with
      | nil =>
          rw [Page.step_of_nil stack]
          exact ⟨orderly, closed⟩
      | cons call outer =>
          by_cases own : call.isOf key
          · have busy := Page.calls_ne_nil_of_stack stack own
            have present := (before.lives begins key).present_of_busy (.inl busy)
            obtain ⟨calls, carried⟩ := Page.step_carried stack own present
            exact ⟨carried.orderly calls orderly closed, carried.closed calls orderly closed⟩
          · have foreign : call.isOf key = false := by simpa using own
            have disturbed := Page.step_disturbed stack foreign
            refine ⟨disturbed.orderly orderly closed fun announced => ?_, disturbed.closed closed⟩
            obtain ⟨demands, living⟩ := Page.demandsEnd_of_calls_step stack foreign announced
            intro under member
            refine Bool.eq_false_iff.mpr fun persists => calm ?_
            exact (Page.interrupts_iff stack).mpr
              ⟨demands, living, under, member, persists⟩

/-- In an orderly life no end has interrupted a call. -/
theorem uninterrupted
    (begins : start.Begins)
    (run : Run free start passed page)
    (orderly : (page.life key).Orderly key) :
    ∀ earlier ∈ passed, ¬ earlier.Interrupts key := by
  induction run with
  | begin => simp
  | @move passed page move _ rest _ inductionHypothesis =>
      have before := (page.disturbed_move move key).orderly_before orderly
      refine List.forall_mem_cons.mpr ⟨?_, inductionHypothesis before⟩
      simp [Page.Interrupts, Page.stack_of_rest rest]
  | @step passed page run inductionHypothesis =>
      cases stack : page.stack with
      | nil =>
          rw [Page.step_of_nil stack] at orderly
          refine List.forall_mem_cons.mpr ⟨?_, inductionHypothesis orderly⟩
          simp [Page.Interrupts, stack]
      | cons call outer =>
          by_cases own : call.isOf key
          · have busy := Page.calls_ne_nil_of_stack stack own
            have present := (run.lives begins key).present_of_busy (.inl busy)
            obtain ⟨calls, carried⟩ := Page.step_carried stack own present
            refine List.forall_mem_cons.mpr
              ⟨?_, inductionHypothesis (carried.orderly_before calls orderly)⟩
            rintro ⟨demands, _⟩
            rw [stack] at demands
            cases (Page.isOf_of_demandsEnd demands).symm.trans own
          · have foreign : call.isOf key = false := by simpa using own
            have before := (Page.step_disturbed stack foreign).orderly_before orderly
            refine List.forall_mem_cons.mpr ⟨?_, inductionHypothesis before⟩
            intro interrupts
            obtain ⟨demands, living, under, member, persists⟩ :=
              (Page.interrupts_iff stack).mp interrupts
            -- The end that was asked for owes the last word above a call that persists.
            have ordered := orderly.ordered
            rw [Page.calls_step_of_demandsEnd stack demands living] at ordered
            have later := (List.pairwise_cons.mp ordered).2
            have still := (List.pairwise_cons.mp later).1 under member rfl
            cases still.symm.trans persists

end Run

namespace Page

variable {key : BindingId} {page : Page}

theorem isOf_of_tells {event : Event} {noticed : Notice} (tells : event.tells key noticed) :
    event.isOf key := by
  cases event with
  | noticed => exact decide_eq_true (of_decide_eq_true tells).1
  | _ => cases tells

theorem countP_events (noticed : Notice) :
    (page.life key).events.countP (Event.tells key noticed) =
      page.history.countP (Event.tells key noticed) := by
  rw [life, List.countP_filter]
  refine List.countP_congr fun event _ => ?_
  simpa using isOf_of_tells

theorem exists_tells_iff (noticed : Notice) :
    (∃ event ∈ (page.life key).events, event.tells key noticed) ↔
      ∃ event ∈ page.history, event.tells key noticed := by
  rw [← List.countP_pos_iff, countP_events, List.countP_pos_iff]

theorem pairwise_last_iff :
    ((page.life key).events.Pairwise fun _ older => older.tells key .onDestroy = false) ↔
      page.history.Pairwise fun newer older =>
        older.tells key .onDestroy → newer.isOf key = false := by
  rw [life, List.pairwise_filter]
  refine List.Pairwise.iff fun newer older => ?_
  constructor
  · intro none tells
    refine Bool.eq_false_iff.mpr fun own => ?_
    cases (none own (isOf_of_tells tells)).symm.trans tells
  · intro last own _
    refine Bool.eq_false_iff.mpr fun tells => ?_
    cases (last tells).symm.trans own

/-- The end of a binding that lives orderly is announced once. -/
theorem endsOnce_of_orderly
    (balanced : (page.life key).Balanced key)
    (orderly : (page.life key).Orderly key)
    (closed : (page.life key).Closed key) :
    page.EndsOnce key where
  once := by
    intro noticed ending
    have owed := orderly.tally_le_one
    rw [← balanced noticed ending, Life.tally, countP_events] at owed
    omega
  last := pairwise_last_iff.mp orderly.last
  quiet := by
    intro told
    have told := (exists_tells_iff .onDestroy).mpr told
    have destroyed := (closed (.inl told)).destroyed
    have present : (page.life key).present := by
      cases found : page.binding? key with
      | none => simp [life, found] at destroyed
      | some binding => simp [life, found]
    refine ⟨(phase_life present).trans destroyed, fun call member own => ?_⟩
    exact orderly.quiet told call (List.mem_filter.mpr ⟨member, own⟩)

/-- Once all calls are over, an end that was announced once was an orderly one. -/
theorem EndsOnce.orderly (ends : page.EndsOnce key) (rest : page.isAtRest) :
    (page.life key).Orderly key where
  last := pairwise_last_iff.mpr ends.last
  quiet := by simp [calls_of_rest rest key]
  ordered := by simp [calls_of_rest rest key]

end Page

namespace Run

variable {free : Move → Prop} {start page : Page} {passed : List Page}

/--
As long as no end of a binding interrupts one of its calls, its end is announced
at most once and is the last that is told of it; and if this is so when all calls
are over, no end has interrupted a call.
-/
theorem ends_once_iff
    (begins : start.Begins)
    (run : Run free start passed page)
    (key : BindingId) :
    ((∀ earlier ∈ passed, ¬ earlier.Interrupts key) → page.EndsOnce key) ∧
      (page.isAtRest → page.EndsOnce key → ∀ earlier ∈ passed, ¬ earlier.Interrupts key) := by
  refine ⟨fun uninterrupted => ?_, fun rest ends => ?_⟩
  · obtain ⟨orderly, closed⟩ := run.orderly begins uninterrupted
    exact Page.endsOnce_of_orderly (run.lives begins key).balanced orderly closed
  · exact run.uninterrupted begins (ends.orderly rest)

/-- A mounted binding that is destroyed by the host: its end is announced once. -/
theorem ends_once_destroyed :
    let start := Page.lone (Hooks.standard .standard) ⟨"Lone", none, true, none, 1, 1, 0⟩ []
    let mounted := Page.run 20 (start.move (.ask (.bind .mount 0)))
    let page := Page.run 20 (mounted.move (.ask (.bind .destroy 0)))
    page.EndsOnce 0 ∧ page.history.countP (Event.tells 0 .onDestroy) = 1 := by
  intro start mounted page
  have toMounted : Run (fun _ => True) start _ mounted :=
    (Run.begin.move (.ask (.bind .mount 0)) rfl trivial).onward 20
  have rest : mounted.isAtRest := by decide
  have run : Run (fun _ => True) start _ page :=
    (toMounted.move (.ask (.bind .destroy 0)) rest trivial).onward 20
  exact ⟨(run.ends_once_iff (Page.begins_lone _ _ _) 0).1 (by decide), by decide⟩

/--
A hook that destroys the binding whose end it is told of: each of the
announcements is made twice.
-/
theorem ended_twice :
    let start := Page.lone
      { Hooks.standard .standard with notices := [(.willDestroy, 0)] }
      ⟨"Lone", none, true, none, 1, 1, 0⟩ [⟨.own .destroy, 1, none⟩]
    let mounted := Page.run 20 (start.move (.ask (.bind .mount 0)))
    let destroyed := Page.run 40 (mounted.move (.ask (.bind .destroy 0)))
    start.Begins ∧ (∃ passed, Run (fun _ => True) start passed destroyed) ∧
      destroyed.isAtRest ∧
      ∀ noticed ∈ [Notice.willDestroy, .didDestroy, .onDestroy],
        destroyed.history.countP (Event.tells 0 noticed) = 2 := by
  intro start mounted destroyed
  have toMounted : Run (fun _ => True) start _ mounted :=
    (Run.begin.move (.ask (.bind .mount 0)) rfl trivial).onward 20
  have rest : mounted.isAtRest := by decide
  have run : Run (fun _ => True) start _ destroyed :=
    (toMounted.move (.ask (.bind .destroy 0)) rest trivial).onward 40
  exact ⟨Page.begins_lone _ _ _, ⟨_, run⟩, by decide, by decide⟩

end Run

end Hydration
