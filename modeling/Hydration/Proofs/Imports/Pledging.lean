import Hydration.Proofs.Imports.Fetching

/-!
# Imports that keep to their module

Whatever the host provides and whatever happens, the registry and the catalog of a
page hold what was provided last, and an attempt to mount keeps to the import it
has started: nothing else ever lands for it.
-/

namespace Hydration

/-- A registry remembers a registration that comes after others. -/
theorem Registry.register_recording
    (base : String)
    (forwarded : Option (List Registration))
    (history : List Registering)
    (entry : Registering) :
    (recording base forwarded history).register entry.path entry.options entry.nickname =
      recording base forwarded (history ++ [entry]) := by
  rw [recording, recording, afterAll, afterAll, List.foldl_append]
  rfl

/-- An attempt has begun, and its import does not start any more. -/
structure Life.HasStarted (key : BindingId) (attempt : Nat) (life : Life) : Prop where
  present : life.present
  begun : attempt ≤ life.attempt
  launched : .launch key attempt ∉ life.calls

namespace Life.HasStarted

variable {key : BindingId} {attempt : Nat} {before after : Life}

theorem disturbed
    (started : before.HasStarted key attempt)
    (happened : Disturbed key before after) :
    after.HasStarted key attempt := by
  obtain ⟨present, begun, launched⟩ := started
  refine ⟨happened.present_of_present present, ?_, ?_⟩
  · cases happened with
    | attempt => exact Nat.le_succ_of_le begun
    | aside | born | wish | forgo | revoke | doom | complain | land => exact begun
  · cases happened with
    | attempt =>
        have later : attempt ≠ before.attempt + 1 := Nat.ne_of_lt (Nat.lt_succ_of_le begun)
        simpa [begin, later] using launched
    | aside | born | wish | forgo => exact launched
    | revoke | doom | complain | land => simpa [push] using launched

theorem carried
    {call : Call}
    {rest : List Call}
    (started : before.HasStarted key attempt)
    (calls : before.calls = call :: rest)
    (happened : Carried key call { before with calls := rest } after) :
    after.HasStarted key attempt := by
  obtain ⟨present, begun, launched⟩ := started
  replace launched : .launch key attempt ∉ rest := by
    rw [calls, List.mem_cons, not_or] at launched
    exact launched.2
  refine ⟨happened.present_eq.trans present, ?_, ?_⟩
  · cases happened with
    | remount => exact Nat.le_succ_of_le begun
    | _ => exact begun
  · cases happened with
    | remount =>
        have later : attempt ≠ before.attempt + 1 := Nat.ne_of_lt (Nat.lt_succ_of_le begun)
        simpa [begin, later] using launched
    | notice | launchLate | launchWaits | arriveLate | settleWanted | teardownLate | dismantleLate
    | remountLate => exact launched
    | arriveFault | constructFault => simpa [fail] using launched
    | launchLands | arriveModule | choose | equip | build | moveIn | settleUnwanted | teardown
    | dismantle | vacated | retireMounted | retire | bury => simpa [push] using launched

end Life.HasStarted

namespace Page

/-- A page holds what was provided, and each import is one of its catalog's own. -/
structure Supplied (base : String) (told : List Provision) (page : Page) : Prop where
  registry : ∃ forwarded,
    page.registry = Registry.recording base forwarded (Provision.registerings told)
  catalog : page.catalog.Reflects base told
  own : ∀ task ∈ page.executor.unfinished, task.pending.IsOwn page.catalog

/-- Whatever waits or has landed for an attempt is what `may` land. -/
structure Expects
    (key : BindingId)
    (attempt : Nat)
    (may : Except MountFault Module → Prop)
    (page : Page) : Prop where
  waiting : ∀ task ∈ page.executor.unfinished, task.binding = key → task.attempt = attempt →
    may task.pending.outcome
  landed : ∀ outcome, .arrive key attempt outcome ∈ page.stack → may outcome

/-- An attempt keeps to the import it has started. -/
structure Pledges
    (key : BindingId)
    (attempt : Nat)
    (may : Except MountFault Module → Prop)
    (page : Page) : Prop extends page.Expects key attempt may where
  started : (page.life key).HasStarted key attempt

variable
  {base : String} {told later : List Provision} {page after start : Page} {key : BindingId}
  {attempt : Nat} {may : Except MountFault Module → Prop} {bond : Bond}

theorem Supplied.abides (supplied : page.Supplied base told) (abides : page.Abides after) :
    after.Supplied base told := by
  refine ⟨abides.registry ▸ supplied.registry, abides.catalog ▸ supplied.catalog, ?_⟩
  intro task member
  rw [abides.catalog]
  refine supplied.own task ?_
  rwa [← Multiset.mem_coe, ← abides.unfinished, Multiset.mem_coe]

/-- Looking at an import leaves everything in place. -/
theorem Supplied.looked
    {task : Task}
    {seen : Prop}
    (supplied : page.Supplied base told)
    (own : task.pending.IsOwn page.catalog)
    (looked : page.Looked task seen after) :
    after.Supplied base told := by
  cases looked with
  | lands registry bindings arrived unfinished stack =>
      have endures := Catalog.Endures.poll own arrived
      refine ⟨registry ▸ supplied.registry, supplied.catalog.endures endures, ?_⟩
      intro other member
      refine endures.loads.isOwn (supplied.own other ?_)
      rwa [← Multiset.mem_coe, ← unfinished, Multiset.mem_coe]
  | waits registry bindings catalog unfinished stack closed =>
      refine ⟨registry ▸ supplied.registry, catalog ▸ supplied.catalog, ?_⟩
      intro other member
      rw [catalog]
      rw [← Multiset.mem_coe, unfinished, Multiset.mem_cons, Multiset.mem_coe] at member
      rcases member with rfl | old
      · exact own
      · exact supplied.own other old

/-- An import may start from the catalog or from a chunk of its own, and nothing is lost. -/
theorem Supplied.startImport
    (supplied : page.Supplied base told)
    (importer : Importer)
    (name : String) :
    page.catalog.Endures (page.startImport importer name).catalog ∧
      (page.startImport importer name).pending.IsOwn (page.startImport importer name).catalog := by
  cases importer with
  | catalog =>
      obtain ⟨endures, own, _⟩ := supplied.catalog.start name
      exact ⟨endures, own⟩
  | chunks keys =>
      simp only [Page.startImport]
      split
      · exact ⟨.refl _, Import.isOwn_settled⟩
      · split
        · exact ⟨.refl _, Import.isOwn_settled⟩
        · exact ⟨.load _ _ _ none, Import.isOwn_uncached⟩

theorem Supplied.fetched
    {call : Call}
    (supplied : page.Supplied base told)
    (fetched : page.Fetched call after) :
    after.Supplied base told := by
  cases fetched with
  | aside abides => exact supplied.abides abides
  | @starts _ _ binding _ found current looked =>
      obtain ⟨endures, own⟩ := supplied.startImport binding.hooks.importer binding.name
      refine Supplied.looked ?_ own looked
      exact ⟨supplied.registry, supplied.catalog.endures endures,
        fun task member => endures.loads.isOwn (supplied.own task member)⟩
  | @resumes queue task others _ taken looked =>
      have among {other : Task} (member : other = task ∨ other ∈ others.unfinished) :
          other ∈ page.executor.unfinished := by
        rwa [← Multiset.mem_coe, taken, Multiset.mem_cons, Multiset.mem_coe]
      have others : ({ page with executor := others }.push [.drive queue]).Supplied base told :=
        ⟨supplied.registry, supplied.catalog,
          fun other member => supplied.own other (among (.inr member))⟩
      exact others.looked (supplied.own task (among (.inl rfl))) looked

theorem Supplied.step (supplied : page.Supplied base told) : page.step.Supplied base told := by
  cases stack : page.stack with
  | nil => rwa [step_of_nil stack]
  | cons call outer =>
      have taken : ({ page with stack := outer } : Page).Supplied base told :=
        ⟨supplied.registry, supplied.catalog, supplied.own⟩
      rw [step_of_stack stack]
      exact taken.fetched (fetched_carryOn _ call)

theorem Supplied.provide (supplied : page.Supplied base told) (provision : Provision) :
    (page.provide provision).Supplied base (told ++ [provision]) := by
  obtain ⟨forwarded, registry⟩ := supplied.registry
  have unregistered (same : provision.registering? = none) :
      ∃ forwarded, page.registry =
        Registry.recording base forwarded (Provision.registerings (told ++ [provision])) := by
    refine ⟨forwarded, ?_⟩
    rw [registry, Provision.registerings_append, same, Option.toList_none, List.append_nil]
  have own {after : Catalog Module} (keeps : page.catalog.KeepsLoads after) :
      ∀ task ∈ page.executor.unfinished, task.pending.IsOwn after :=
    fun task member => keeps.isOwn (supplied.own task member)
  cases provision with
  | options entry =>
      refine ⟨⟨forwarded, ?_⟩, supplied.catalog.options entry, supplied.own⟩
      rw [Provision.registerings_append]
      simp only [Page.provide, registry]
      exact Registry.register_recording base forwarded _ entry
  | ready path module =>
      exact ⟨unregistered rfl, supplied.catalog.define path module,
        own (Catalog.KeepsLoads.refl page.catalog)⟩
  | lazy path loads lastLoad =>
      exact ⟨unregistered rfl, supplied.catalog.defineLazy path loads lastLoad,
        own (.addChunk page.catalog _)⟩

theorem Supplied.move
    {move : Move}
    (supplied : page.Supplied base told)
    (keeps : move.keepsProvisions) :
    (page.move move).Supplied base told := by
  cases move with
  | catalog | registry => cases keeps
  | ask | callback | script | constructor | plugin | scene | bind =>
      exact ⟨supplied.registry, supplied.catalog, supplied.own⟩

theorem Supplied.provided
    (supplied : page.Supplied base told)
    (provided : Provided page later after) :
    after.Supplied base (told ++ later) := by
  induction provided with
  | here => rwa [List.append_nil]
  | provide provision _ inductionHypothesis =>
      rw [← List.append_assoc]
      exact inductionHypothesis.provide provision
  | move move _ _ keeps inductionHypothesis => exact inductionHypothesis.move keeps
  | step _ inductionHypothesis => exact inductionHypothesis.step

/-- What a binding ties together stays, whatever goes on. -/
theorem bond?_step (found : page.bond? key = some bond) : page.step.bond? key = some bond := by
  cases stack : page.stack with
  | nil => rwa [step_of_nil stack]
  | cons call outer =>
      rw [step_of_stack stack]
      have seen {before after : Page} {task : Task} {unseen : Prop}
          (looked : before.Looked task unseen after)
          (bindings : before.bindings = page.bindings) :
          after.bond? key = some bond := by
        have same : after.bindings = page.bindings := by
          cases looked with
          | lands _ kept => exact kept.trans bindings
          | waits _ kept => exact kept.trans bindings
        rw [bond?, binding?, same]
        exact found
      cases fetched_carryOn { page with stack := outer } call with
      | aside abides => exact abides.bond key bond found
      | starts _ _ looked => exact seen looked rfl
      | resumes _ looked => exact seen looked rfl

theorem bond?_move (found : page.bond? key = some bond) (move : Move) :
    (page.move move).bond? key = some bond := by
  cases move with
  | ask | script | constructor | plugin | catalog | registry | scene => exact found
  | callback other notice script =>
      exact ((Proceeds.setCallback page other notice script).bond key).trans found
  | bind => exact (Abides.addBinding page _).bond key bond found

theorem Expects.abides
    (expects : page.Expects key attempt may)
    (abides : page.Abides after) :
    after.Expects key attempt may := by
  refine ⟨?_, ?_⟩
  · intro task member
    rw [← Multiset.mem_coe, abides.unfinished, Multiset.mem_coe] at member
    exact expects.waiting task member
  · intro outcome member
    obtain ⟨added, stack, harmless⟩ := abides.stack
    rw [stack] at member
    rcases List.mem_append.mp member with new | old
    · cases harmless _ new
    · exact expects.landed outcome old

/-- An import that is looked at lands what it brings and nothing else. -/
theorem Looked.expects
    {task : Task}
    {seen : Prop}
    (looked : page.Looked task seen after)
    (expects : page.Expects key attempt may)
    (own : task.binding = key → task.attempt = attempt → may task.pending.outcome) :
    after.Expects key attempt may := by
  cases looked with
  | lands registry bindings arrived unfinished stack =>
      refine ⟨?_, ?_⟩
      · intro other member
        rw [← Multiset.mem_coe, unfinished, Multiset.mem_coe] at member
        exact expects.waiting other member
      · intro outcome member
        rw [stack, List.mem_cons] at member
        rcases member with same | old
        · cases same
          rw [Catalog.outcome_of_poll_eq_some arrived]
          exact own rfl rfl
        · exact expects.landed outcome old
  | waits registry bindings catalog unfinished stack closed =>
      refine ⟨?_, by rw [stack]; exact expects.landed⟩
      intro other member
      rw [← Multiset.mem_coe, unfinished, Multiset.mem_cons, Multiset.mem_coe] at member
      rcases member with rfl | old
      · exact own
      · exact expects.waiting other old

namespace Pledges

theorem launched (pledges : page.Pledges key attempt may) : .launch key attempt ∉ page.stack :=
  fun member => pledges.started.launched (List.mem_filter.mpr ⟨member, decide_eq_true rfl⟩)

theorem step (pledges : page.Pledges key attempt may) : page.step.Pledges key attempt may := by
  refine ⟨?_, ?_⟩
  · cases stack : page.stack with
    | nil =>
        rw [step_of_nil stack]
        exact pledges.toExpects
    | cons call outer =>
        have taken : ({ page with stack := outer } : Page).Expects key attempt may :=
          ⟨pledges.waiting,
            fun outcome member => pledges.landed outcome (stack ▸ List.mem_cons_of_mem _ member)⟩
        rw [step_of_stack stack]
        cases fetched_carryOn { page with stack := outer } call with
        | aside abides => exact taken.abides abides
        | starts found current looked =>
            refine looked.expects ⟨taken.waiting, taken.landed⟩ ?_
            -- the import of this attempt has started before
            rintro rfl rfl
            exact (pledges.launched (stack ▸ List.mem_cons_self)).elim
        | @resumes queue task others _ unfinished looked =>
            have among {other : Task} (member : other = task ∨ other ∈ others.unfinished) :
                other ∈ page.executor.unfinished := by
              rwa [← Multiset.mem_coe, unfinished, Multiset.mem_cons, Multiset.mem_coe]
            have driving :
                ({ page with stack := outer, executor := others }.push [.drive queue]).Expects
                  key attempt may :=
              ⟨fun other member => taken.waiting other (among (.inr member)),
                fun outcome member => taken.landed outcome (by simpa [push] using member)⟩
            exact looked.expects driving (taken.waiting task (among (.inl rfl)))
  · rcases page.step_life fun _ => pledges.started.present with
      disturbed | ⟨call, outer, _, _, calls, carried⟩
    · exact pledges.started.disturbed disturbed
    · exact pledges.started.carried calls carried

theorem provided
    (pledges : page.Pledges key attempt may)
    (provided : Provided page later after) :
    after.Pledges key attempt may := by
  induction provided with
  | here => exact pledges
  | provide provision _ inductionHypothesis =>
      obtain ⟨⟨waiting, landed⟩, started⟩ := inductionHypothesis
      rw [← life_provide _ provision] at started
      cases provision <;> exact ⟨⟨waiting, landed⟩, started⟩
  | @move told page move _ _ _ inductionHypothesis =>
      obtain ⟨⟨waiting, landed⟩, started⟩ := inductionHypothesis
      have started := started.disturbed (page.disturbed_move move key)
      cases move with
      | ask => exact ⟨⟨waiting, by simpa [Page.move, push] using landed⟩, started⟩
      | callback | script | constructor | plugin | catalog | registry | scene | bind =>
          exact ⟨⟨waiting, landed⟩, started⟩
  | step _ inductionHypothesis => exact inductionHypothesis.step

end Pledges

/-- While the import of an attempt starts, nothing else is done for the attempt. -/
theorem unexpected_of_attempts
    {outer : List Call}
    (attempts : (page.life key).Attempts)
    (stack : page.stack = .launch key attempt :: outer) :
    attempt ≤ (page.life key).attempt ∧ .launch key attempt ∉ outer ∧
      ({ page with stack := outer } : Page).Expects key attempt fun _ => False := by
  have calls : (page.life key).calls = .launch key attempt :: outer.filter (Call.isOf key) := by
    simp [life, stack, Call.isOf]
  have carriers : (page.life key).carriers =
      attempt ::ₘ ((page.life key).imports +
        ((outer.filter (Call.isOf key)).filterMap Call.attempt? : List Nat)) := by
    simp [Life.carriers, calls, Call.attempt?, ← Multiset.cons_coe, Multiset.add_cons]
  have once := attempts.once
  rw [carriers, Multiset.nodup_cons, Multiset.mem_add, not_or] at once
  obtain ⟨⟨unimported, uncalled⟩, _⟩ := once
  have begun := attempts.begun attempt (carriers ▸ Multiset.mem_cons_self _ _)
  have uncarried {call : Call} (own : call.isOf key) (carries : call.attempt? = some attempt) :
      call ∉ outer := fun member =>
    uncalled (List.mem_filterMap.mpr ⟨call, List.mem_filter.mpr ⟨member, own⟩, carries⟩)
  refine ⟨begun, uncarried (decide_eq_true rfl) rfl, ?_, ?_⟩
  · rintro task member rfl rfl
    refine unimported (Multiset.mem_coe.mpr (List.mem_map.mpr ⟨task, ?_, rfl⟩))
    exact List.mem_filter.mpr ⟨member, decide_eq_true rfl⟩
  · exact fun outcome => uncarried (decide_eq_true rfl) rfl

/-- An attempt whose import starts does not start another one. -/
theorem hasStarted_launch
    {outer : List Call}
    (attempts : (page.life key).Attempts)
    (stack : page.stack = .launch key attempt :: outer)
    (present : (page.life key).present) :
    (page.step.life key).HasStarted key attempt := by
  obtain ⟨begun, unlaunched, _⟩ := unexpected_of_attempts attempts stack
  obtain ⟨_, happened⟩ := step_carried stack (decide_eq_true rfl) present
  have gone : .launch key attempt ∉ outer.filter (Call.isOf key) :=
    fun member => unlaunched (List.mem_filter.mp member).1
  generalize page.step.life key = after at happened ⊢
  cases happened with
  | launchLate | launchWaits => exact ⟨present, begun, gone⟩
  | launchLands => exact ⟨present, begun, by simpa [Life.push] using gone⟩

end Page

end Hydration
