import Hydration.Proofs.Life.Sheltered
import Hydration.Proofs.Life.Wishes

/-!
# Awaited imports

While the import of the current attempt is unfinished the binding mounts, or it
has ended.  What follows a destructor leaves the binding unmounted whatever was
asked for meanwhile, so this holds only if destructors ask for nothing: then an
instance leaves at one go, and no attempt begins before it has left.
-/

namespace Hydration

/-- Whether a call follows the destructor of an instance. -/
def Call.clears : Call → Bool
  | vacated _ => true
  | _ => false

/-- Whether a destructor is about to do an action: what follows it comes right behind its script. -/
def Page.destructorActs (page : Page) : Bool :=
  match page.stack with
  | .script script position subject :: .vacated _ :: _ =>
      ((page.scripts.get? script).bind fun known => known.actions[position]?).any fun action =>
        Page.Action.isFor action ((subject.bind page.binding?).map Binding.label) &&
          0 < action.remaining
  | _ => false

namespace Life

variable {key : BindingId} {before after : Life} {call : Call} {rest : List Call}

/-- The import of the current attempt is awaited, and an instance leaves at one go. -/
structure Awaits (key : BindingId) (life : Life) : Prop where
  awaited : life.attempt ∈ life.imports → life.phase = .mounting ∨ life.phase = .destroyed
  leaving : .vacated key ∈ life.calls → life.phase = .mounted
  foremost : .vacated key ∉ life.calls.tail

theorem Disturbed.mem_of_clears
    {other : Call}
    (happened : Disturbed key before after)
    (clears : other.clears)
    (member : other ∈ after.calls) :
    other ∈ before.calls := by
  cases happened with
  | aside | born | wish | forgo => exact member
  | attempt | revoke | doom | complain | land =>
      simp only [begin, push, List.cons_append, List.nil_append, List.mem_cons] at member
      repeat' rcases member with rfl | member
      all_goals first | exact member | cases clears

/-- Only an instance that begins to leave brings a call that follows a destructor. -/
theorem Carried.mem_of_clears
    {other : Call}
    (happened : Carried key call before after)
    (stays : call ≠ .dismantle key)
    (clears : other.clears)
    (member : other ∈ after.calls) :
    other ∈ before.calls := by
  cases happened with
  | dismantle => exact (stays rfl).elim
  | notice | launchLate | launchWaits | arriveLate | settleWanted | teardownLate | dismantleLate
  | remountLate =>
      exact member
  | launchLands | arriveFault | arriveModule | constructFault | choose | equip | build | moveIn
  | settleUnwanted | teardown | vacated | remount | retireMounted | retire | bury =>
      simp only [begin, fail, push, List.cons_append, List.nil_append, List.mem_cons] at member
      repeat' rcases member with rfl | member
      all_goals first | exact member | cases clears

/-- Where nothing follows a destructor an import may be awaited. -/
theorem Awaits.of_clear
    {life : Life}
    (clear : .vacated key ∉ life.calls)
    (awaited : life.attempt ∈ life.imports → life.phase = .mounting ∨ life.phase = .destroyed) :
    life.Awaits key :=
  ⟨awaited, fun member => (clear member).elim, fun member => clear (List.mem_of_mem_tail member)⟩

theorem Disturbed.awaits
    (happened : Disturbed key before after)
    (clear : .vacated key ∉ before.calls)
    (awaits : before.Awaits key) :
    after.Awaits key := by
  refine .of_clear (fun member => clear (happened.mem_of_clears rfl member)) ?_
  have awaited := awaits.awaited
  cases happened with
  | aside | born | wish | forgo | revoke | doom | complain => exact awaited
  | attempt => exact fun _ => .inl rfl
  | land => exact fun member => awaited (Multiset.mem_cons_of_mem member)

/-- The attempt that a call carries on is not awaited as well. -/
theorem Attempts.not_mem_imports
    (attempts : before.Attempts)
    (calls : before.calls = call :: rest)
    (carries : call.attempt? = some before.attempt) :
    before.attempt ∉ before.imports := by
  intro member
  have once := attempts.once
  rw [carriers, calls, List.filterMap_cons, carries] at once
  exact Multiset.disjoint_left.mp (Multiset.nodup_add.mp once).2.2 member
    (Multiset.mem_coe.mpr List.mem_cons_self)

theorem Carried.awaits
    (calls : before.calls = call :: rest)
    (happened : Carried key call { before with calls := rest } after)
    (attempts : before.Attempts)
    (building : before.Building)
    (awaits : before.Awaits key) :
    after.Awaits key := by
  have clear : .vacated key ∉ rest := by
    have foremost := awaits.foremost
    rwa [calls] at foremost
  have unawaited (carries : call.attempt? = some before.attempt) :=
    attempts.not_mem_imports calls carries
  have current (builds : call.builds) : call.attempt? = some before.attempt :=
    (building.current call (by rw [calls]; exact List.mem_cons_self) builds).1
  have mounts {attempt : Nat}
      (current : ({ before with calls := rest } : Life).Mounts attempt) :
      some attempt = some before.attempt :=
    congrArg some current.2.symm
  by_cases leaves : call = .dismantle key
  · subst leaves
    cases happened with
    | dismantleLate => exact .of_clear clear awaits.awaited
    | dismantle _ mounted => exact ⟨awaits.awaited, fun _ => mounted, clear⟩
  · refine .of_clear (fun member => clear (happened.mem_of_clears leaves rfl member)) ?_
    cases happened with
    | dismantleLate | dismantle => exact (leaves rfl).elim
    | notice | launchLate | launchLands | arriveLate | arriveModule | choose | equip | build
    | settleWanted | settleUnwanted | teardownLate | teardown | remountLate | retireMounted
    | retire =>
        exact awaits.awaited
    | launchWaits _ _ current => exact fun _ => .inl current.1
    | remount => exact fun _ => .inl rfl
    | bury => exact fun _ => .inr rfl
    | arriveFault _ _ _ mounting => exact fun member => (unawaited (mounts mounting) member).elim
    | constructFault | moveIn => exact fun member => (unawaited (current rfl) member).elim
    | vacated =>
        intro member
        have mounted := awaits.leaving (by rw [calls]; exact List.mem_cons_self)
        rcases awaits.awaited member with phase | phase <;> cases mounted.symm.trans phase

/-- Along a life that is disturbed at no moment at which an instance leaves, imports are awaited. -/
theorem Sheltered.awaits
    {allowed : Life → Call → Prop}
    {life : Life}
    (sheltered : Sheltered key (fun life => .vacated key ∉ life.calls) allowed life) :
    life.Awaits key := by
  induction sheltered with
  | begin begins =>
      refine .of_clear (by simp [begins.calls]) fun member => ?_
      rw [begins.imports] at member
      cases (Multiset.notMem_zero _ member)
  | disturbed _ clear happened inductionHypothesis =>
      exact happened.awaits clear inductionHypothesis
  | carried earlier _ calls _ happened inductionHypothesis =>
      obtain ⟨attempts, building, _⟩ := earlier.reached.laws
      exact happened.awaits calls attempts building inductionHypothesis

end Life

namespace Page

variable {page : Page} {call : Call} {outer : List Call}

/-- An instance leaves at one go: only the script of its destructor comes before what follows. -/
def ClearsAtOnce (page : Page) : Prop :=
  (∀ call ∈ page.stack.tail, call.clears = false) ∨
    ∃ script position subject key outer,
      page.stack = .script script position subject :: .vacated key :: outer ∧
        ∀ call ∈ outer, call.clears = false

/-- A script that does no action goes on to its next one or is over. -/
theorem stack_runScript_of_gentle
    {script : ScriptId}
    {position : Nat}
    {subject : Option BindingId}
    {key : BindingId}
    (gentle : page.destructorActs = false)
    (stack : page.stack = .script script position subject :: .vacated key :: outer) :
    page.step.stack = .vacated key :: outer ∨
      page.step.stack = .script script (position + 1) subject :: .vacated key :: outer := by
  rw [destructorActs, stack] at gentle
  rw [step_of_stack stack, carryOn, runScript]
  dsimp only at gentle ⊢
  cases chosen : (page.scripts.get? script).bind fun known => known.actions[position]? with
  | none => exact .inl rfl
  | some action =>
      rw [chosen, Option.any_some] at gentle
      right
      have inert : ¬ (Action.isFor action ((subject.bind page.binding?).map Binding.label) &&
          decide (0 < action.remaining)) = true := by
        rw [gentle]
        exact Bool.false_ne_true
      dsimp only
      rw [if_neg]
      · rfl
      · exact inert

/-- An instance that begins to leave has its destructor run at once. -/
theorem clearsAtOnce_dismantle
    {key : BindingId}
    (clear : ∀ call ∈ page.stack, call.clears = false) :
    (page.dismantle key).ClearsAtOnce := by
  have aside : page.ClearsAtOnce := .inl fun call member => clear call (List.mem_of_mem_tail member)
  unfold dismantle
  split
  · exact aside
  · split
    · dsimp only
      split
      · exact .inl clear
      · split
        · exact .inl clear
        · exact .inr ⟨_, _, _, _, _, rfl, clear⟩
    · exact aside

/-- A call that lets no instance leave brings no call that follows a destructor. -/
theorem clear_step
    (stack : page.stack = call :: outer)
    (stays : ∀ key, call ≠ .dismantle key)
    (clear : ∀ call ∈ outer, call.clears = false)
    (present : ∀ key, (page.life key).calls ≠ [] → (page.life key).present) :
    ∀ call ∈ page.step.stack, call.clears = false := by
  intro other member
  rw [← Bool.not_eq_true]
  intro clears
  cases other with
  | vacated key =>
      have own : (Call.vacated key).isOf key := decide_eq_true rfl
      have under : .vacated key ∈ (page.step.life key).calls := List.mem_filter.mpr ⟨member, own⟩
      have none : .vacated key ∉ outer.filter (Call.isOf key) := fun found =>
        Bool.false_ne_true ((clear _ (List.mem_of_mem_filter found)).symm)
      by_cases foreign : call.isOf key = false
      · have before := (step_disturbed stack foreign).mem_of_clears clears under
        rw [life, stack, List.filter_cons_of_neg (by simp [foreign])] at before
        exact none before
      · have isOf : call.isOf key := by simpa using foreign
        obtain ⟨_, carried⟩ :=
          step_carried stack isOf (present key (calls_ne_nil_of_stack stack isOf))
        exact none (carried.mem_of_clears (stays key) clears under)
  | _ => cases clears

theorem ClearsAtOnce.step
    (clears : page.ClearsAtOnce)
    (gentle : page.destructorActs = false)
    (present : ∀ key, (page.life key).calls ≠ [] → (page.life key).present) :
    page.step.ClearsAtOnce := by
  rcases clears with clear | ⟨script, position, subject, key, outer, stack, clear⟩
  · cases stack : page.stack with
    | nil =>
        rw [step_of_nil stack]
        exact .inl clear
    | cons call outer =>
        have clear : ∀ call ∈ outer, call.clears = false := by simpa [stack] using clear
        by_cases leaves : ∃ key, call = .dismantle key
        · obtain ⟨key, rfl⟩ := leaves
          rw [step_of_stack stack]
          exact clearsAtOnce_dismantle clear
        · have stays (key : BindingId) : call ≠ .dismantle key := fun same => leaves ⟨key, same⟩
          have after := clear_step stack stays clear present
          exact .inl fun other member => after other (List.mem_of_mem_tail member)
  · rcases stack_runScript_of_gentle gentle stack with after | after
    · exact .inl (by simpa [after] using clear)
    · exact .inr ⟨script, position + 1, subject, key, outer, after, clear⟩

/-- While an instance leaves, no other call changes the life of its binding. -/
theorem ClearsAtOnce.clear_or_same
    {key : BindingId}
    (clears : page.ClearsAtOnce)
    (stack : page.stack = call :: outer)
    (foreign : call.isOf key = false) :
    .vacated key ∉ (page.life key).calls ∨ page.step.life key = page.life key := by
  rcases clears with clear | ⟨script, position, subject, other, inner, shape, _⟩
  · left
    intro member
    obtain ⟨under, own⟩ := List.mem_filter.mp member
    rw [stack] at under clear
    rcases List.mem_cons.mp under with rfl | outside
    · cases foreign.symm.trans own
    · exact Bool.false_ne_true ((clear _ outside).symm)
  · right
    obtain ⟨rfl, rfl⟩ := List.cons.inj (stack.symm.trans shape)
    rw [step_of_stack stack, carryOn, life_runScript]
    exact life_pop stack foreign

end Page

namespace Run

variable {free : Move → Prop} {start page : Page} {passed : List Page} {key : BindingId}

/-- As long as destructors ask for nothing, instances leave at one go. -/
theorem clearsAtOnce
    (begins : start.Begins)
    (run : Run free start passed page)
    (gentle : ∀ earlier ∈ passed, earlier.destructorActs = false) :
    page.ClearsAtOnce := by
  induction run with
  | begin => exact .inl (by simp [begins.rest])
  | @move passed page move _ rest _ _ =>
      refine .inl fun call member => ?_
      have none : (page.move move).stack.tail = [] := by
        cases move with
        | ask => exact Page.stack_of_rest rest
        | _ => exact congrArg List.tail (Page.stack_of_rest rest)
      rw [none] at member
      cases member
  | @step passed page earlier inductionHypothesis =>
      obtain ⟨now, before⟩ := List.forall_mem_cons.mp gentle
      exact (inductionHypothesis before).step now fun key busy =>
        (earlier.lives begins key).present_of_busy (.inl busy)

/-- As long as destructors ask for nothing, an import of the current attempt is awaited. -/
theorem awaits
    (begins : start.Begins)
    (run : Run free start passed page)
    (gentle : ∀ earlier ∈ passed, earlier.destructorActs = false) :
    (page.life key).Awaits key := by
  have sheltered :
      Life.Sheltered key (fun life => .vacated key ∉ life.calls) (fun _ _ => True)
        (page.life key) := by
    refine run.sheltered begins ?_ ?_ fun _ _ _ _ _ _ => trivial
    · intro life idle member
      rw [idle] at member
      cases member
    · intro earlier member call outer stack foreign
      obtain ⟨_, before, within⟩ := run.moment_within (List.mem_cons_of_mem _ member)
      have clears := before.clearsAtOnce begins fun moment passed => gentle moment (within passed)
      exact clears.clear_or_same stack foreign
  exact sheltered.awaits

end Run

end Hydration
