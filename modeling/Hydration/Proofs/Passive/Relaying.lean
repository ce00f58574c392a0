import Hydration.Proofs.Passive.Settling

/-!
# Flipped monitors are relayed

If all scripts are idle then monitors that flipped are delivered one after the
other.  Each has the binding told the value of its watch that the scene has by
now, and the binding comes to rest before the next monitor is looked at.  So all
that a binding sees of a change is how often it is told one and the same value.
-/

namespace Hydration

namespace Life

variable {key : BindingId} {value : Bool} {before after life : Life} {times more : Nat}

/-- A life right after the binding was told whether its context holds. -/
def told (key : BindingId) (value : Bool) (life : Life) : Life :=
  match life.phase with
  | .destroyed => life
  | .mounting => { life with wanted := value }
  | .unmounted => if value then life.begin key else { life with wanted := false }
  | .mounted =>
      if value then { life with wanted := true }
      else ({ life with wanted := false } : Life).push [.teardown key]

theorem disturbed_told (present : life.present) (value : Bool) :
    Disturbed key life (life.told key value) := by
  unfold told
  split
  · exact .aside life _ (Nat.le_refl _)
  · next mounting =>
      cases value with
      | true => exact .wish life present (.inl mounting)
      | false => exact .forgo life present (.inr mounting)
  · next unmounted =>
      cases value with
      | true => exact .attempt life present unmounted
      | false => exact .forgo life present (.inl unmounted)
  · next mounted =>
      cases value with
      | true => exact .wish life present (.inr mounted)
      | false => exact .revoke life present mounted

/--
A binding that is told the same value a number of times, and that comes to rest
each time before anything else happens to it.
-/
inductive Heard (key : BindingId) (value : Bool) : Nat → Life → Life → Prop where
  | never (life : Life) : Heard key value 0 life life
  /-- Other bindings may get instances. -/
  | aside
      {times : Nat}
      {before after : Life}
      (instances : Nat)
      (earlier : Heard key value times before after) :
      Heard key value times before { after with instances }
  | again
      {times : Nat}
      {before middle after : Life}
      (earlier : Heard key value times before middle)
      (present : middle.present)
      (idle : middle.calls = [])
      (settles : (middle.told key value).Settles key after) :
      Heard key value (times + 1) before after

theorem Heard.trans
    {middle : Life}
    (first : Heard key value times before middle)
    (second : Heard key value more middle after) :
    Heard key value (times + more) before after := by
  induction second with
  | never => exact first
  | aside instances _ inductionHypothesis => exact (inductionHypothesis first).aside instances
  | again _ present idle settles inductionHypothesis =>
      exact (inductionHypothesis first).again present idle settles

theorem Heard.planned
    (heard : Heard key value times before after)
    (planned : before.Planned key) :
    after.Planned key := by
  induction heard with
  | never => exact planned
  | aside _ _ inductionHypothesis => exact inductionHypothesis planned
  | again _ present idle settles inductionHypothesis =>
      refine settles.planned (Disturbed.planned ?_ idle (inductionHypothesis planned))
      exact disturbed_told present value

end Life

namespace Page

variable {page after : Page} {key : BindingId} {monitor : MonitorId} {rest : List MonitorId}

/-- Whether a monitor reports to the watch of a binding. -/
def tells (page : Page) (key : BindingId) (monitor : MonitorId) : Bool :=
  (page.watch? key).any fun watch => page.scene.listener? monitor = some (.watch watch)

theorem watch?_of_found
    {binding : Binding}
    (found : page.binding? key = some binding) :
    page.watch? key = binding.watch := by
  simp [watch?, outlook?, found, Binding.outlook]

theorem matchesContext_eq (page : Page) (key : BindingId) :
    page.matchesContext key = ((page.watch? key).map page.scene.watchValue).getD false := by
  have watches : (page.binding? key).bind Binding.watch = page.watch? key := by
    cases found : page.binding? key <;> simp [watch?, outlook?, found, Binding.outlook]
  unfold matchesContext
  rw [watches]
  split <;> simp [*]

theorem Frames.watch? (frames : page.Frames after) (key : BindingId) :
    after.watch? key = page.watch? key := by
  simp only [Page.watch?, frames.outlook]

theorem Frames.tells (frames : page.Frames after) (key : BindingId) :
    after.tells key = page.tells key := by
  funext monitor
  simp only [Page.tells, frames.watch?, frames.scene]

theorem Frames.matchesContext (frames : page.Frames after) (key : BindingId) :
    after.matchesContext key = page.matchesContext key := by
  simp only [matchesContext_eq, frames.watch?, frames.scene]

/-- A binding that is told a value by its watch, in the terms of its life. -/
theorem life_obey_told
    {binding : Binding}
    (found : page.binding? key = some binding)
    (value : Bool) :
    (page.obey (if value then .mount else .unmount) key).life key =
      (page.life key).told key value := by
  obtain ⟨_, phase, _⟩ := life_of_found found
  cases stage : binding.phase with
  | unmounted =>
      have now := phase.trans stage
      cases value with
      | true =>
          have begun : (page.obey .mount key).life key = (page.life key).begin key :=
            life_mount_of_unmounted found stage
          simpa [Life.told, now] using begun
      | false =>
          simp [obey, unmount, phase_of_found found, stage, life_setWanted found, Life.told, now]
  | mounting =>
      have now := phase.trans stage
      cases value with
      | true => simp [obey, mount, found, stage, life_setWanted found, Life.told, now]
      | false =>
          simp [obey, unmount, phase_of_found found, stage, life_setWanted found, Life.told, now]
  | mounted =>
      have now := phase.trans stage
      cases value with
      | true => simp [obey, mount, found, stage, life_setWanted found, Life.told, now]
      | false =>
          simp [obey, unmount, phase_of_found found, stage, life_setWanted found, Life.told, now,
            Call.isOf]
  | destroyed =>
      have now := phase.trans stage
      cases value with
      | true => simp [obey, mount, found, stage, Life.told, now]
      | false => simp [obey, unmount, phase_of_found found, stage, Life.told, now]

theorem Confined.obey (page : Page) (key : BindingId) (value : Bool) :
    page.Confined key 28 (page.obey (if value then .mount else .unmount) key) := by
  cases value with
  | true => exact .mount page key
  | false => exact (Confined.unmount page key).mono (by omega)

theorem life_obey_other
    {other : BindingId}
    (page : Page)
    (value : Bool)
    (different : key ≠ other) :
    (page.obey (if value then .mount else .unmount) key).life other = page.life other := by
  cases value with
  | true => exact life_mount_other page different
  | false => exact life_unmount_other page different

/--
All monitors in question report to watches of bindings, each watch tells its own
binding, and every binding has a plan.
-/
structure Relays (monitors : List MonitorId) (page : Page) : Prop where
  idle : page.HasIdleScripts
  reached :
    ∀ monitor ∈ monitors, ∃ watch entry key,
      page.scene.listener? monitor = some (.watch watch) ∧
        page.scene.watches.get? watch = some entry ∧ entry.audience = some (.binding key) ∧
        page.watch? key = some watch
  served :
    ∀ key watch, page.watch? key = some watch →
      ∃ entry, page.scene.watches.get? watch = some entry ∧ entry.audience = some (.binding key)
  planned : ∀ key, (page.life key).Planned key

/-- A monitor that is delivered has one binding told the value of its watch. -/
theorem Relays.deliver
    (relays : page.Relays (monitor :: rest))
    (stack : page.stack = [.deliver (monitor :: rest)]) :
    ∃ key binding pins,
      page.binding? key = some binding ∧ page.tells key monitor = true ∧
        (∀ other, other ≠ key → page.tells other monitor = false) ∧
        (∀ call ∈ pins, ∃ monitors, call = .pin monitors) ∧
        page.step =
          { page with
            stack :=
              .request (.bind (if page.matchesContext key then .mount else .unmount) key) ::
                (pins ++ [.deliver rest]) } := by
  obtain ⟨watch, entry, key, listens, there, audience, watched⟩ :=
    relays.reached monitor List.mem_cons_self
  obtain ⟨binding, found⟩ : ∃ binding, page.binding? key = some binding := by
    cases found : page.binding? key with
    | none => simp [watch?, outlook?, found] at watched
    | some binding => exact ⟨binding, rfl⟩
  have value : page.matchesContext key = page.scene.allHold entry.monitors := by
    simp [matchesContext_eq, watched, Scene.watchValue, there]
  refine ⟨key, binding, [.pin entry.monitors, .pin [monitor]], found, ?_, ?_, ?_, ?_⟩
  · simp [tells, watched, listens]
  · intro other different
    unfold tells
    cases looks : page.watch? other with
    | none => rfl
    | some mine =>
        obtain ⟨known, isThere, tellsOther⟩ := relays.served other mine looks
        have apart : mine ≠ watch := by
          rintro rfl
          cases there.symm.trans isThere
          cases audience.symm.trans tellsOther
          exact different rfl
        simp [listens, Ne.symm apart]
  · simp
  · rw [step_of_stack stack, value]
    simp [carryOn, Page.deliver, push, hear, tell, listens, there, audience]

/-- Calls that only keep monitors alive are taken off without more. -/
theorem leads_of_pins
    {pins outer : List Call}
    (stack : page.stack = pins ++ outer)
    (pinned : ∀ call ∈ pins, ∃ monitors, call = .pin monitors) :
    page.Leads { page with stack := outer } := by
  induction pins generalizing page with
  | nil =>
      have same : ({ page with stack := outer } : Page) = page := by
        rw [← List.nil_append outer, ← stack]
      rw [same]
      exact .here page
  | cons call pins inductionHypothesis =>
      obtain ⟨monitors, rfl⟩ := pinned call List.mem_cons_self
      have popped : page.step = { page with stack := pins ++ outer } := step_of_stack stack
      have onward : page.step.Leads { page.step with stack := outer } :=
        inductionHypothesis (by rw [popped]) fun call member =>
          pinned call (List.mem_cons_of_mem _ member)
      rw [popped] at onward
      exact .step (by rwa [popped])

/-- A binding of which nothing is under way comes to rest once it is told whether it is wanted. -/
theorem exists_settled_obey
    (idle : page.HasIdleScripts)
    (found : page.binding? key = some binding)
    (free : ∀ call ∈ page.stack, call.isOf key = false)
    (planned : (page.life key).Planned key)
    (value : Bool) :
    ∃ after, (page.obey (if value then .mount else .unmount) key).Leads after ∧
      page.Frames after ∧ after.stack = page.stack ∧
      Life.Settles key ((page.life key).told key value) (after.life key) ∧
      ∀ other, other ≠ key →
        ∃ instances, after.life other = { page.life other with instances } := by
  have told := life_obey_told found value
  have confined := Confined.obey page key value
  have others {other : BindingId} (different : other ≠ key) :=
    life_obey_other page value (Ne.symm different)
  have present : (page.life key).present := (life_of_found found).1
  have quiet : (page.life key).calls = [] :=
    List.filter_eq_nil_iff.mpr fun call member => by simp [free call member]
  have disturbed : Life.Disturbed key (page.life key) ((page.life key).told key value) :=
    Life.disturbed_told present value
  generalize page.obey _ key = obeyed at told confined others ⊢
  obtain ⟨added, pushed, owned, _⟩ := confined.stack
  have idle : obeyed.HasIdleScripts := by
    simpa only [HasIdleScripts, confined.scripts] using idle
  obtain ⟨settled, settles⟩ := obeyed.settles idle pushed owned free
    (by rw [told]; exact disturbed.present_of_present present)
    (by rw [told]; exact disturbed.planned quiet planned)
  refine ⟨settled, settles.leads, confined.toFrames.trans settles.toFrames, settles.stack, ?_, ?_⟩
  · rw [← told]
    exact settles.own
  · intro other different
    obtain ⟨instances, later⟩ := settles.others other different
    exact ⟨instances, by rw [later, others different]⟩

/-- One monitor is delivered, and the binding it has told comes to rest. -/
theorem Relays.relay
    (relays : page.Relays (monitor :: rest))
    (stack : page.stack = [.deliver (monitor :: rest)]) :
    ∃ after, page.Leads after ∧ page.Frames after ∧ after.stack = [.deliver rest] ∧
      ∀ key, (page.life key).Heard key (page.matchesContext key)
        (if page.tells key monitor then 1 else 0) (after.life key) := by
  obtain ⟨key, binding, pins, found, tells, alone, pinned, delivered⟩ := relays.deliver stack
  have silent (other : BindingId) :
      (pins ++ [Call.deliver rest]).filter (Call.isOf other) = [] := by
    refine List.filter_eq_nil_iff.mpr fun call member => ?_
    rcases List.mem_append.mp member with pin | last
    · obtain ⟨monitors, rfl⟩ := pinned call pin
      exact Bool.false_ne_true
    · rw [List.mem_singleton.mp last]
      exact Bool.false_ne_true
  -- The page on which the binding is told, with the request taken off.
  let asked : Page := { page with stack := pins ++ [.deliver rest] }
  have frames : page.Frames asked := ⟨rfl, rfl, fun _ => rfl⟩
  have same (other : BindingId) : asked.life other = page.life other :=
    life_replace (by rw [silent, stack]; rfl)
  have planned : (asked.life key).Planned key := by
    rw [same]
    exact relays.planned key
  obtain ⟨settled, leads, settledFrames, settledStack, settles, others⟩ :=
    asked.exists_settled_obey relays.idle (show asked.binding? key = some binding from found)
      (fun call member => by simpa using List.filter_eq_nil_iff.mp (silent key) call member)
      planned (page.matchesContext key)
  have toSettled : page.Leads settled := by
    refine .step (.step ?_)
    rw [delivered, step_of_stack rfl]
    exact leads
  have final (other : BindingId) :
      ({ settled with stack := [.deliver rest] } : Page).life other = settled.life other :=
    life_replace (by rw [settledStack, silent]; rfl)
  refine ⟨{ settled with stack := [.deliver rest] }, ?_, ?_, rfl, ?_⟩
  · exact toSettled.trans (leads_of_pins settledStack pinned)
  · have popped : settled.Frames { settled with stack := [.deliver rest] } :=
      ⟨rfl, rfl, fun _ => rfl⟩
    exact frames.trans (settledFrames.trans popped)
  · intro other
    rw [final]
    by_cases own : other = key
    · subst own
      rw [if_pos tells]
      have present : (page.life other).present := (life_of_found found).1
      have quiet : (page.life other).calls = [] := by
        simp [life, stack, Call.isOf]
      rw [same] at settles
      exact .again (.never _) present quiet settles
    · rw [alone other own, if_neg Bool.false_ne_true]
      obtain ⟨instances, later⟩ := others other own
      rw [later, same]
      exact .aside instances (.never _)

/--
Flipped monitors are relayed until the page is at rest.  The surroundings stay as
they are, and each binding was told the value of its watch as often as one of its
monitors was delivered.
-/
theorem Relays.settle
    {monitors : List MonitorId}
    (relays : page.Relays monitors)
    (stack : page.stack = [.deliver monitors]) :
    ∃ after, page.Leads after ∧ page.Frames after ∧ after.isAtRest ∧
      ∀ key, (page.life key).Heard key (page.matchesContext key)
        (monitors.countP (page.tells key)) (after.life key) := by
  induction monitors generalizing page with
  | nil =>
      have popped : page.step = { page with stack := [] } := step_of_stack stack
      refine ⟨page.step, .step (.here _), ?_, ?_, ?_⟩
      · rw [popped]
        exact ⟨rfl, rfl, fun _ => rfl⟩
      · rw [popped]
        rfl
      · intro key
        rw [popped, life_pop stack rfl]
        exact .never _
  | cons monitor rest inductionHypothesis =>
      obtain ⟨next, leads, frames, remaining, heard⟩ := relays.relay stack
      have relaysNext : next.Relays rest := by
        refine ⟨?_, ?_, ?_, ?_⟩
        · simpa only [HasIdleScripts, frames.scripts] using relays.idle
        · intro other member
          simpa only [frames.scene, frames.watch?] using
            relays.reached other (List.mem_cons_of_mem _ member)
        · simpa only [frames.scene, frames.watch?] using relays.served
        · exact fun key => (heard key).planned (relays.planned key)
      obtain ⟨after, later, framesLater, isRest, heardLater⟩ :=
        inductionHypothesis relaysNext remaining
      refine ⟨after, leads.trans later, frames.trans framesLater, isRest, ?_⟩
      intro key
      have both := (heard key).trans (by
        simpa only [frames.matchesContext, frames.tells] using heardLater key)
      rwa [List.countP_cons, Nat.add_comm]

end Page

end Hydration
