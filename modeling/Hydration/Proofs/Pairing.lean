import Hydration.Proofs.Life.Mountings
import Mathlib.Data.List.Chain

/-!
# Mounts and unmounts are paired

Every unmount that is noticed closes the mount that was noticed before it, unless
a teardown comes to its close in a binding that is not mounted any more: while
its destructor ran, the binding was unmounted once already.
-/

namespace Hydration

/-- Mounts and unmounts take turns, and a mount comes first. -/
def Notice.Alternate (notices : List Notice) : Prop :=
  notices.IsChain (· ≠ ·) ∧ notices.head? ≠ some .didUnmount

/-- The mounts and unmounts of a binding in the order in which they were noticed. -/
def Page.mountings (page : Page) (key : BindingId) : List Notice :=
  (page.history.filterMap (Event.mounting? key)).reverse

/-- Whether a call ends its binding. -/
def Call.buries : Call → Bool
  | bury _ => true
  | _ => false

/-- Whether a teardown is about to close in a binding that is not mounted. -/
def Page.Revacates (page : Page) (key : BindingId) : Prop :=
  page.stack.head? = some (.vacated key) ∧ page.phase key ≠ .mounted

/-- What comes next takes its turn if it is not the same as the latest. -/
theorem Notice.alternate_append {notices : List Notice} {next : Notice} :
    Notice.Alternate (notices ++ [next]) ↔
      Notice.Alternate notices ∧ notices.getLast? ≠ some next ∧
        (notices = [] → next ≠ .didUnmount) := by
  unfold Notice.Alternate
  rw [List.isChain_append]
  cases notices with
  | nil => simp
  | cons first rest =>
      simp only [List.isChain_singleton, List.head?_cons, Option.mem_some_iff, List.cons_append]
      grind

namespace Life

variable {key : BindingId} {before after life : Life} {call : Call} {rest : List Call}

/-- Whether the mounts and unmounts that were noticed or are to be take turns. -/
def Alternates (key : BindingId) (life : Life) : Prop :=
  Notice.Alternate (life.mountings key).reverse

theorem alternates_cons
    {next : Notice}
    (mountings : after.mountings key = next :: before.mountings key) :
    after.Alternates key ↔
      before.Alternates key ∧ (before.mountings key).head? ≠ some next ∧
        (before.mountings key = [] → next ≠ .didUnmount) := by
  rw [Alternates, mountings, List.reverse_cons, Notice.alternate_append, List.getLast?_reverse,
    List.reverse_eq_nil_iff]
  rfl

/-- What has not taken its turn is not made good by what follows. -/
theorem Alternates.of_append
    {added : List Notice}
    (alternates : after.Alternates key)
    (mountings : after.mountings key = added ++ before.mountings key) :
    before.Alternates key := by
  rw [Alternates, mountings, List.reverse_append] at alternates
  obtain ⟨chain, first⟩ := alternates
  refine ⟨(List.isChain_append.mp chain).1, ?_⟩
  intro unmount
  apply first
  rw [List.head?_append, unmount, Option.some_or]

/-- A call that overrides the phase is carried on only in a binding that is not over. -/
theorem Noticed.told_of_overrides
    (noticed : before.Noticed key)
    (calls : before.calls = call :: rest)
    (overrides : call.overrides) :
    before.phase = .mounted ↔ (before.mountings key).head? = some .didMount := by
  rcases noticed.told with ended | ⟨_, told⟩
  · have gentle := ended.unopposed call (by rw [calls]; exact List.mem_cons_self)
    cases gentle.symm.trans overrides
  · exact told

/-- Notices take turns as long as a teardown closes only while the binding is mounted. -/
theorem Carried.alternates
    (calls : before.calls = call :: rest)
    (happened : Carried key call { before with calls := rest } after)
    (building : before.Building)
    (noticed : before.Noticed key)
    (once : call = .vacated key → before.phase = .mounted)
    (alternates : before.Alternates key) :
    after.Alternates key := by
  have silent : ∀ outer ∈ rest, outer.mounting? = none := by
    simpa [calls] using noticed.foremost
  obtain ⟨mountings, _⟩ := happened.mountings calls silent
  cases happened with
  | moveIn =>
      have told := noticed.told_of_overrides calls rfl
      refine (alternates_cons mountings).mpr ⟨alternates, ?_, by simp⟩
      rw [Ne, ← told]
      intro mounted
      have idle := building.idle (.inr mounted) _ (by rw [calls]; exact List.mem_cons_self)
      cases idle
  | vacated =>
      have last := (noticed.told_of_overrides calls rfl).mp (once rfl)
      refine (alternates_cons mountings).mpr ⟨alternates, by simp [last], ?_⟩
      intro empty
      simp [empty] at last
  | constructFault _ _ stage _ early =>
      cases stage with
      | fitting occupant => exact (early occupant rfl).elim
      | choosing | equipping | building =>
          rw [Alternates, mountings]
          exact alternates
  | _ =>
      rw [Alternates, mountings]
      exact alternates

/-- A teardown that closes in a binding that is not mounted breaks the turns. -/
theorem Carried.breaks
    (calls : before.calls = .vacated key :: rest)
    (happened : Carried key (.vacated key) { before with calls := rest } after)
    (noticed : before.Noticed key)
    (again : before.phase ≠ .mounted) :
    ¬ after.Alternates key := by
  have silent : ∀ outer ∈ rest, outer.mounting? = none := by
    simpa [calls] using noticed.foremost
  obtain ⟨mountings, _⟩ := happened.mountings calls silent
  rw [alternates_cons mountings]
  rintro ⟨_, different, started⟩
  have told := noticed.told_of_overrides calls rfl
  cases latest : (before.mountings key).head? with
  | none => exact started (List.head?_eq_none_iff.mp latest) rfl
  | some notice =>
      have known := isMounting_of_mem_mountings (List.mem_of_head? latest)
      rw [latest] at different told
      cases notice <;> simp_all [Notice.isMounting]

section Sheltered

variable {allowed : Life → Call → Prop}

theorem Sheltered.noticed
    (sheltered : Sheltered key Silent allowed life)
    (ends :
      ∀ life, allowed life (.bury key) → ∀ outer ∈ life.calls.tail, outer.overrides = false) :
    life.Noticed key := by
  induction sheltered with
  | begin begins =>
      refine ⟨by simp [begins.calls], .inr ?_⟩
      simp [begins.phase, Life.mountings, begins.calls, begins.events]
  | disturbed _ silent happened inductionHypothesis =>
      exact happened.noticed silent inductionHypothesis
  | carried earlier _ calls permitted happened inductionHypothesis =>
      obtain ⟨_, building, _⟩ := earlier.reached.laws
      refine happened.noticed calls ?_ building inductionHypothesis
      rintro rfl
      simpa [calls] using ends _ permitted

theorem Sheltered.alternates
    (sheltered : Sheltered key Silent allowed life)
    (ends :
      ∀ life, allowed life (.bury key) → ∀ outer ∈ life.calls.tail, outer.overrides = false)
    (once : ∀ life, allowed life (.vacated key) → life.phase = .mounted) :
    life.Alternates key := by
  induction sheltered with
  | begin begins =>
      simp [Alternates, Notice.Alternate, Life.mountings, begins.calls, begins.events]
  | disturbed _ silent happened inductionHypothesis =>
      rw [Alternates, happened.mountings silent]
      exact inductionHypothesis
  | carried earlier _ calls permitted happened inductionHypothesis =>
      obtain ⟨_, building, _⟩ := earlier.reached.laws
      refine happened.alternates calls building (earlier.noticed ends) ?_ inductionHypothesis
      rintro rfl
      exact once _ permitted

end Sheltered

end Life

variable {free : Move → Prop} {start page : Page} {passed : List Page} {key : BindingId}

/-- Whether no mount or unmount that is to be noticed waits behind another call. -/
def Page.Prompt (page : Page) (key : BindingId) : Prop :=
  ∀ call ∈ page.stack.tail, call.isOf key → call.mounting? = none

/-- What moves in or leaves puts its notice on top. -/
theorem Page.prompt_of_brings
    {call : Call}
    {outer : List Call}
    (stack : page.stack = call :: outer)
    (own : call.isOf key)
    (brings : call.brings ≠ [])
    (silent : ∀ call ∈ outer, call.isOf key → call.mounting? = none) :
    page.step.Prompt key := by
  rw [Page.step_of_stack stack]
  cases call with
  | vacated =>
      intro call member
      rcases List.mem_append.mp member with new | old
      · simp at new
        rcases new with rfl | rfl <;> intro <;> rfl
      · exact silent call old
  | construct binding attempt stage =>
      cases stage with
      | fitting occupant =>
          change Page.Prompt (Page.construct _ binding attempt (.fitting occupant)) key
          unfold Page.construct
          split
          · intro call member
            exact silent call (List.mem_of_mem_tail member)
          · intro call member
            rcases List.mem_append.mp member with new | old
            · simp at new
              rcases new with rfl | rfl <;> intro <;> rfl
            · exact silent call old
      | _ => exact (brings rfl).elim
  | _ => exact (brings rfl).elim

theorem Page.prompt_of_silent
    (silent : (page.life key).Silent) :
    page.Prompt key := by
  intro call member own
  exact silent call (List.mem_filter.mpr ⟨List.mem_of_mem_tail member, own⟩)

/-- While another call is on top, a binding that is prompt has nothing to be noticed. -/
theorem Page.Prompt.silent
    {call : Call}
    {outer : List Call}
    (prompt : page.Prompt key)
    (stack : page.stack = call :: outer)
    (foreign : call.isOf key = false) :
    (page.life key).Silent := by
  intro other member
  obtain ⟨under, own⟩ := List.mem_filter.mp member
  rw [stack] at under
  rcases List.mem_cons.mp under with rfl | outside
  · cases foreign.symm.trans own
  · exact prompt other (by simpa [stack] using outside) own

theorem Page.Prompt.step
    (prompt : page.Prompt key)
    (present : (page.life key).calls ≠ [] → (page.life key).present) :
    page.step.Prompt key := by
  cases stack : page.stack with
  | nil =>
      rwa [Page.step_of_nil stack]
  | cons call outer =>
      by_cases own : call.isOf key
      · have silent : ∀ call ∈ outer, call.isOf key → call.mounting? = none := by
          simpa [Page.Prompt, stack] using prompt
        by_cases brings : call.brings = []
        · have busy := Page.calls_ne_nil_of_stack stack own
          obtain ⟨calls, carried⟩ := Page.step_carried stack own (present busy)
          obtain ⟨_, _, quiet⟩ := carried.mountings calls (by simpa using silent)
          exact Page.prompt_of_silent (quiet brings)
        · exact Page.prompt_of_brings stack own brings silent
      · have foreign : call.isOf key = false := by simpa using own
        have silent := prompt.silent stack foreign
        exact Page.prompt_of_silent ((Page.step_disturbed stack foreign).silent silent)

namespace Run

/-- What is to be noticed of mounts and unmounts is noticed next. -/
theorem prompt
    (begins : start.Begins)
    (run : Run free start passed page) :
    page.Prompt key := by
  induction run with
  | begin =>
      simp [Page.Prompt, begins.rest]
  | @move _ page move earlier rest _ _ =>
      apply Page.prompt_of_silent
      have idle : (page.life key).Silent := by
        simp [Life.Silent, Page.calls_of_rest rest key]
      exact (page.disturbed_move move key).silent idle
  | step earlier inductionHypothesis =>
      exact inductionHypothesis.step fun busy =>
        (earlier.lives begins key).present_of_busy (.inl busy)

/-- Where a binding ends, nothing under way brings it back. -/
def EndsForGood (passed : List Page) (key : BindingId) : Prop :=
  ∀ earlier ∈ passed, ∀ outer, earlier.stack = .bury key :: outer →
    ∀ call ∈ outer, call.isOf key → call.overrides = false

/-- A binding is disturbed only while nothing is to be noticed of its mounts and unmounts. -/
theorem heard
    {allowed : Life → Call → Prop}
    (begins : start.Begins)
    (run : Run free start passed page)
    (permitted :
      ∀ earlier ∈ passed, ∀ call outer, earlier.stack = call :: outer → call.isOf key →
        allowed (earlier.life key) call) :
    Life.Sheltered key Life.Silent allowed (page.life key) := by
  refine run.sheltered begins ?_ ?_ permitted
  · intro life idle call member
    rw [idle] at member
    cases member
  · intro earlier member call outer stack foreign
    obtain ⟨_, before⟩ := run.moment (List.mem_cons_of_mem _ member)
    exact .inl ((before.prompt begins).silent stack foreign)

/-- The calls of a binding are carried on as `EndsForGood` says. -/
theorem ends
    (ends : EndsForGood passed key) :
    ∀ earlier ∈ passed, ∀ call outer, earlier.stack = call :: outer → call.isOf key →
      call = .bury key → ∀ other ∈ (earlier.life key).calls.tail, other.overrides = false := by
  intro earlier member call outer stack own same other under
  subst same
  rw [Page.life, stack, List.filter_cons_of_pos own] at under
  obtain ⟨outside, isOf⟩ := List.mem_filter.mp under
  exact ends earlier member outer stack other outside isOf

/-- As long as a binding ends for good, it is mounted exactly if a mount was noticed last. -/
theorem noticed
    (begins : start.Begins)
    (run : Run free start passed page)
    (ends : EndsForGood passed key) :
    (page.life key).Noticed key := by
  have sheltered :
      Life.Sheltered key Life.Silent
        (fun life call =>
          call = .bury key → ∀ outer ∈ life.calls.tail, outer.overrides = false)
        (page.life key) :=
    run.heard begins (Run.ends ends)
  exact sheltered.noticed fun _ permitted => permitted rfl

/-- A step of a page on which notices do not take turns does not make that good. -/
theorem broken_step
    (begins : start.Begins)
    (run : Run free start passed page)
    (ends : EndsForGood passed key)
    (broken : ¬ (page.life key).Alternates key ∨ page.Revacates key) :
    ¬ (page.step.life key).Alternates key := by
  cases stack : page.stack with
  | nil =>
      rw [Page.step_of_nil stack]
      exact broken.resolve_right fun again => by simp [Page.Revacates, stack] at again
  | cons call outer =>
      by_cases own : call.isOf key
      · have busy := Page.calls_ne_nil_of_stack stack own
        have present := (run.lives begins key).present_of_busy (.inl busy)
        obtain ⟨calls, carried⟩ := Page.step_carried stack own present
        have noticed := run.noticed begins ends
        rcases broken with broken | ⟨top, away⟩
        · intro alternates
          obtain ⟨mountings, _⟩ :=
            carried.mountings calls (by simpa [calls] using noticed.foremost)
          exact broken (alternates.of_append mountings)
        · rw [stack] at top
          cases top
          rw [Page.phase_life present] at away
          exact carried.breaks calls noticed away
      · have foreign : call.isOf key = false := by simpa using own
        have silent := (run.prompt begins).silent stack foreign
        rw [Life.Alternates, (Page.step_disturbed stack foreign).mountings silent]
        refine broken.resolve_right ?_
        rintro ⟨top, _⟩
        rw [stack] at top
        cases top
        simp [Call.isOf] at foreign

/-- Once a teardown has closed in a binding that was not mounted, notices do not take turns. -/
theorem broken
    (begins : start.Begins)
    (run : Run free start passed page)
    (ends : EndsForGood passed key)
    (again : ∃ earlier ∈ passed, earlier.Revacates key) :
    ¬ (page.life key).Alternates key := by
  induction run with
  | begin => simp at again
  | @move passed page move earlier rest _ inductionHypothesis =>
      have silent : (page.life key).Silent := by
        simp [Life.Silent, Page.calls_of_rest rest key]
      rw [Life.Alternates, (page.disturbed_move move key).mountings silent]
      refine inductionHypothesis (fun page member => ends page (List.mem_cons_of_mem _ member)) ?_
      obtain ⟨moment, member, revacates⟩ := again
      rcases List.mem_cons.mp member with rfl | old
      · simp [Page.Revacates, Page.stack_of_rest rest] at revacates
      · exact ⟨moment, old, revacates⟩
  | @step passed page earlier inductionHypothesis =>
      have endsBefore : EndsForGood passed key :=
        fun page member => ends page (List.mem_cons_of_mem _ member)
      refine earlier.broken_step begins endsBefore ?_
      obtain ⟨moment, member, revacates⟩ := again
      rcases List.mem_cons.mp member with rfl | old
      · exact .inr revacates
      · exact .inl (inductionHypothesis endsBefore ⟨moment, old, revacates⟩)

/-- At rest all that is to be noticed of mounts and unmounts was noticed. -/
theorem mountings_of_rest (rest : page.isAtRest) :
    ((page.life key).mountings key).reverse = page.mountings key := by
  have own (event : Event) (known : (Event.mounting? key event).isSome) : event.isOf key := by
    cases event with
    | noticed binding notice =>
        by_cases same : binding = key
        · simp [Event.isOf, same]
        · simp [Event.mounting?, same] at known
    | _ => cases known
  rw [Life.mountings, Page.calls_of_rest rest, Page.mountings, Page.life, List.filterMap_nil,
    List.nil_append, List.filterMap_filter]
  congr 1
  refine List.filterMap_congr fun event _ => ?_
  split
  · rfl
  · next foreign =>
      cases told : Event.mounting? key event with
      | none => rfl
      | some notice => exact (foreign (own event (by simp [told]))).elim

/--
At rest the mounts and unmounts of a binding were noticed in turns, beginning
with a mount, if and only if no teardown has closed in a binding that was not
mounted.
-/
theorem mountings_alternate_iff
    (begins : start.Begins)
    (run : Run (fun _ => True) start passed page)
    (ends : EndsForGood passed key)
    (rest : page.isAtRest) :
    Notice.Alternate (page.mountings key) ↔ ∀ earlier ∈ passed, ¬ earlier.Revacates key := by
  rw [← mountings_of_rest rest]
  constructor
  · intro alternates earlier member again
    exact run.broken begins ends ⟨earlier, member, again⟩ alternates
  · intro careful
    have sheltered :
        Life.Sheltered key Life.Silent
          (fun life call =>
            (call = .bury key → ∀ outer ∈ life.calls.tail, outer.overrides = false) ∧
              (call = .vacated key → life.phase = .mounted))
          (page.life key) := by
      refine run.heard begins fun earlier member call outer stack own => ?_
      refine ⟨Run.ends ends earlier member call outer stack own, ?_⟩
      rintro rfl
      by_contra away
      obtain ⟨_, before⟩ := run.moment (List.mem_cons_of_mem _ member)
      have busy := Page.calls_ne_nil_of_stack stack own
      have present := (before.lives begins key).present_of_busy (.inl busy)
      exact careful earlier member ⟨by simp [stack], by rwa [Page.phase_life present]⟩
    exact sheltered.alternates (fun _ permitted => permitted.1 rfl)
      fun _ permitted => permitted.2 rfl

/-- A binding that is mounted, unmounted and destroyed. -/
theorem mountings_alternate_destroyed :
    let start := Page.lone (Hooks.standard .standard) ⟨"Lone", none, true, none, 1, 1, 0⟩ []
    let mounted := Page.run 20 (start.move (.ask (.bind .mount 0)))
    let page := Page.run 20 (mounted.move (.ask (.bind .destroy 0)))
    page.mountings 0 = [.didMount, .didUnmount] ∧
      ∃ passed, Run (fun _ => True) start passed page ∧
        ∀ earlier ∈ passed, ¬ earlier.Revacates 0 := by
  intro start mounted page
  have rest : mounted.isAtRest := by decide
  have run :
      Run (fun _ => True) start
        (Page.trail 20 (mounted.move (.ask (.bind .destroy 0))) ++
          mounted :: (Page.trail 20 (start.move (.ask (.bind .mount 0))) ++ [start]))
        page :=
    (((Run.begin.move (.ask (.bind .mount 0)) rfl trivial).onward 20).move
      (.ask (.bind .destroy 0)) rest trivial).onward 20
  have noticed : page.mountings 0 = [.didMount, .didUnmount] := by decide
  have alternate : Notice.Alternate (page.mountings 0) := by
    simp [noticed, Notice.Alternate]
  refine ⟨noticed, _, run, ?_⟩
  refine (run.mountings_alternate_iff (Page.begins_lone _ _ _) ?_ (by decide)).mp alternate
  -- When the binding ends nothing else is under way.
  have alone :
      (Page.trail 20 (mounted.move (.ask (.bind .destroy 0))) ++
        mounted :: (Page.trail 20 (start.move (.ask (.bind .mount 0))) ++ [start])).all
          fun earlier => earlier.stack.tail.isEmpty || !earlier.stack.head?.any Call.buries := by
    decide
  intro earlier member outer stack
  have empty := List.all_eq_true.mp alone earlier member
  simp only [stack, List.tail_cons, List.head?_cons, Option.any_some, Call.buries,
    Bool.not_true, Bool.or_false, List.isEmpty_iff] at empty
  simp [empty]

/--
A destructor that unmounts its own binding: the binding is unmounted while the
destructor runs, and once more when it has run.
-/
theorem unmounted_twice :
    let start := Page.lone (Hooks.standard .standard)
      ⟨"Lone", none, true, none, 1, 0, 0⟩ [⟨.own .unmount, 1, none⟩]
    let mounted := Page.run 20 (start.move (.ask (.bind .mount 0)))
    let page := Page.run 30 (mounted.move (.ask (.bind .unmount 0)))
    start.Begins ∧ (∃ passed, Run (fun _ => True) start passed page) ∧
      page.isAtRest ∧ page.mountings 0 = [.didMount, .didUnmount, .didUnmount] ∧
      ¬ Notice.Alternate (page.mountings 0) := by
  intro start mounted page
  have toMounted : Run (fun _ => True) start _ mounted :=
    (Run.begin.move (.ask (.bind .mount 0)) rfl trivial).onward 20
  have rest : mounted.isAtRest := by decide
  have run : Run (fun _ => True) start _ page :=
    (toMounted.move (.ask (.bind .unmount 0)) rest trivial).onward 30
  have noticed : page.mountings 0 = [.didMount, .didUnmount, .didUnmount] := by decide
  refine ⟨Page.begins_lone _ _ _, ⟨_, run⟩, by decide, noticed, ?_⟩
  simp [noticed, Notice.Alternate]

end Run

end Hydration
