import Hydration.Proofs.Watching.Telling

/-!
# What a listener is told alternates

A monitor tells its listener a value whenever the value has changed, so one would
expect that the listener is told another value each time.  It is, as long as a
monitor has told of one change before the next one.  A listener that changes the
viewport or the visible elements while others are still to be told may flip a monitor
back that is still on a list, and then its listener is told the same value twice, the
one it has had all along.
-/

namespace Hydration

namespace Page

/-- The value that the listener of a monitor is told by a deed, if it is told one. -/
def told? (page : Page) (key : MonitorId) (deed : Deed) : Option Bool :=
  if page.delivered? deed = some key then
    (page.scene.listener? key).map fun _ => page.scene.value key
  else none

/-- What the listener of a monitor is told in the course of deeds, in this order. -/
def tellings (key : MonitorId) : Page → List Deed → List Bool
  | _, [] => []
  | page, deed :: rest => (page.told? key deed).toList ++ tellings key (page.afterDeed deed) rest

/-- In the course of deeds a monitor flips while it is still on a list. -/
def FlipsUntold (key : MonitorId) : Page → List Deed → Prop
  | _, [] => False
  | page, deed :: rest =>
      (key ∈ page.undelivered ∧
        (page.afterDeed deed).scene.value key ≠ page.scene.value key) ∨
      FlipsUntold key (page.afterDeed deed) rest

/-- All along the course of deeds it is this listener that listens to a monitor. -/
def IsHeardBy (page : Page) (key : MonitorId) (listener : Listener) (deeds : List Deed) : Prop :=
  ∀ moment ∈ deeds.scanl afterDeed page, moment.scene.listener? key = some listener

/-- What a deed means for one monitor, and what the listener of the monitor is told by it. -/
inductive Fares (key : MonitorId) (before after : Page) : Option Bool → Prop where
  | calm
      (value : after.scene.value key = before.scene.value key)
      (pending : after.undelivered.count key = before.undelivered.count key) :
      Fares key before after none
  | flipped
      (value : after.scene.value key = !before.scene.value key)
      (pending : after.undelivered.count key = before.undelivered.count key + 1) :
      Fares key before after none
  | told
      (value : after.scene.value key = before.scene.value key)
      (pending : before.undelivered.count key = after.undelivered.count key + 1) :
      Fares key before after (some (before.scene.value key))

variable {page : Page} {key : MonitorId} {listener : Listener} {deed : Deed} {deeds : List Deed}
variable {last : Bool}

/-- A monitor flips and is put on a list, or its listener is told the value it has. -/
theorem fares_afterDeed
    (vital : page.scene.Vital page.pinned)
    (listens : page.scene.listener? key = some listener)
    (deed : Deed) :
    Fares key page (page.afterDeed deed) (page.told? key deed) := by
  obtain ⟨monitor, found, _⟩ := Option.bind_eq_some_iff.mp listens
  rcases afterDeed_cases vital deed with ⟨quiet, flipped, flips⟩ | ⟨first, next, comes, values⟩
  · have silent : page.told? key deed = none := by simp [told?, quiet]
    have pending : (page.afterDeed deed).undelivered.count key =
        flipped.count key + page.undelivered.count key := by
      rw [flips.undelivered, List.count_append]
    rw [silent]
    by_cases member : key ∈ flipped
    · refine .flipped (Bool.eq_not.mpr ((flips.values key monitor found).mp member)) ?_
      rw [pending, List.count_eq_one_of_mem flips.distinct member, Nat.add_comm]
    · refine .calm (not_not.mp fun differs => member ?_) ?_
      · exact (flips.values key monitor found).mpr differs
      · rw [pending, List.count_eq_zero_of_not_mem member, Nat.zero_add]
  · obtain ⟨now, here, same⟩ := values key monitor found
    have value : (page.afterDeed deed).scene.value key = page.scene.value key := by
      simp [Scene.value, found, here, same]
    by_cases mine : first = key
    · subst mine
      have told : page.told? first deed = some (page.scene.value first) := by
        simp [told?, next, listens]
      rw [told]
      exact .told value (by rw [comes, List.count_cons_self])
    · have silent : page.told? key deed = none := by simp [told?, next, mine]
      rw [silent]
      exact .calm value (by rw [comes, List.count_cons_of_ne mine])

theorem IsHeardBy.head (heard : page.IsHeardBy key listener deeds) :
    page.scene.listener? key = some listener :=
  heard page (by cases deeds <;> simp)

theorem IsHeardBy.tail (heard : page.IsHeardBy key listener (deed :: deeds)) :
    (page.afterDeed deed).IsHeardBy key listener deeds :=
  fun moment member => heard moment (by rw [List.scanl_cons]; exact List.mem_cons_of_mem _ member)

/--
A monitor whose value differs from what its listener was told last, and only such a
one, is on a list once; so it stays unless the monitor flips while it is on a list.
-/
theorem isChain_tellings
    (vital : page.scene.Vital page.pinned)
    (heard : page.IsHeardBy key listener deeds)
    (pending : page.undelivered.count key = if page.scene.value key = last then 0 else 1)
    (unhurried : ¬ page.FlipsUntold key deeds) :
    (last :: page.tellings key deeds).IsChain (· ≠ ·) := by
  induction deeds generalizing page last with
  | nil => exact .singleton last
  | cons deed rest inductionHypothesis =>
      obtain ⟨notNow, notLater⟩ := not_or.mp unhurried
      have onward (told : Bool) := @inductionHypothesis (page.afterDeed deed) told
        ((attends_afterDeed page deed).vital vital) heard.tail
      have fares := fares_afterDeed vital heard.head deed
      rw [tellings]
      generalize page.told? key deed = told at fares
      cases fares with
      | calm value same =>
          exact onward last (by rw [same, value, pending]) notLater
      | flipped value more =>
          -- it stood on no list, so its listener was told the value that it had before
          have absent : key ∉ page.undelivered := fun member =>
            notNow ⟨member, by rw [value]; exact Bool.not_ne_self _⟩
          rw [List.count_eq_zero_of_not_mem absent] at pending more
          have current : page.scene.value key = last := by
            by_contra differs
            rw [if_neg differs] at pending
            cases pending
          refine onward last ?_ notLater
          rw [more, value, current, if_neg (Bool.not_ne_self last)]
      | told value fewer =>
          have differs : page.scene.value key ≠ last := by
            rintro same
            rw [if_pos same] at pending
            omega
          rw [if_neg differs] at pending
          refine List.isChain_cons_cons.mpr ⟨differs.symm, onward _ ?_ notLater⟩
          rw [if_pos value]
          omega

/--
A monitor whose listener is told another value each time, and that is on no list in
the end, was on a list once at most, and only if its value differed from what its
listener was told last.
-/
theorem not_flipsUntold_of_isChain
    (vital : page.scene.Vital page.pinned)
    (heard : page.IsHeardBy key listener deeds)
    (done : key ∉ (page.afterDeeds deeds).undelivered)
    (alternates : (last :: page.tellings key deeds).IsChain (· ≠ ·)) :
    page.undelivered.count key ≤ (if page.scene.value key = last then 0 else 1) ∧
      ¬ page.FlipsUntold key deeds := by
  induction deeds generalizing page last with
  | nil =>
      have absent : page.undelivered.count key = 0 := List.count_eq_zero.mpr done
      exact ⟨by rw [absent]; exact Nat.zero_le _, id⟩
  | cons deed rest inductionHypothesis =>
      have onward (told : Bool) := @inductionHypothesis (page.afterDeed deed) told
        ((attends_afterDeed page deed).vital vital) heard.tail done
      have fares := fares_afterDeed vital heard.head deed
      rw [tellings] at alternates
      generalize page.told? key deed = told at fares alternates
      cases fares with
      | calm value same =>
          obtain ⟨few, later⟩ := onward last alternates
          rw [same, value] at few
          exact ⟨few, not_or.mpr ⟨fun now => now.2 value, later⟩⟩
      | flipped value more =>
          obtain ⟨few, later⟩ := onward last alternates
          have absent : page.undelivered.count key = 0 := by
            rw [more] at few
            split at few <;> omega
          refine ⟨by rw [absent]; exact Nat.zero_le _, not_or.mpr ⟨fun now => ?_, later⟩⟩
          exact List.count_eq_zero.mp absent now.1
      | told value fewer =>
          obtain ⟨differs, others⟩ := List.isChain_cons_cons.mp alternates
          obtain ⟨few, later⟩ := onward _ others
          rw [if_pos value] at few
          rw [if_neg (Ne.symm differs)]
          exact ⟨by omega, not_or.mpr ⟨fun now => now.2 value, later⟩⟩

/--
Whatever is done from some moment on, and however often listeners change the viewport,
the visible elements or toggles in between: let a monitor have one and the same
listener all the time, as it has from the moment on at which it is listened to.  The
listener is told another value each time, beginning with another one than the monitor
has at that moment, if the monitor is on no list then and never flips while it is on
one.  Once all is told it is so only if.
-/
theorem tellings_alternate_iff
    {start : Page}
    (opens : start.Opens)
    (before : List Deed)
    {key : MonitorId}
    {listener : Listener}
    {deeds : List Deed}
    (heard : (start.afterDeeds before).IsHeardBy key listener deeds) :
    let page := start.afterDeeds before
    let alternates := (page.scene.value key :: page.tellings key deeds).IsChain (· ≠ ·)
    (key ∉ page.undelivered ∧ ¬ page.FlipsUntold key deeds → alternates) ∧
      (key ∉ (page.afterDeeds deeds).undelivered →
        (alternates ↔ key ∉ page.undelivered ∧ ¬ page.FlipsUntold key deeds)) := by
  intro page alternates
  have vital := vital_afterDeeds opens.vital before
  have enough (unhurried : key ∉ page.undelivered ∧ ¬ page.FlipsUntold key deeds) :
      alternates := by
    refine isChain_tellings vital heard ?_ unhurried.2
    rw [if_pos rfl]
    exact List.count_eq_zero.mpr unhurried.1
  refine ⟨enough, fun done => ⟨fun told => ?_, enough⟩⟩
  obtain ⟨few, unhurried⟩ := not_flipsUntold_of_isChain vital heard done told
  rw [if_pos rfl] at few
  exact ⟨List.count_eq_zero.mp (Nat.le_zero.mp few), unhurried⟩

/-- Two monitors of an element are listened to, the one that is told first by a script. -/
def tuned (script : ScriptId) : List Deed :=
  [.make ⟨[("visible", .visible)]⟩ 0 ⟨"visible", "true"⟩,
    .make ⟨[("visible", .visible)]⟩ 0 ⟨"visible", "false"⟩,
    .subscribe 0 script, .subscribe 1 1]

/-- The element is shown and then hidden, with time to tell of it in between. -/
theorem tellings_alternate_in_turn :
    let page := flickering.afterDeeds (tuned 1)
    let deeds : List Deed :=
      .ask (.reveal 0 true) :: List.replicate 12 .step ++
        .ask (.reveal 0 false) :: List.replicate 12 .step
    flickering.Opens ∧ page.IsHeardBy 1 (.host 1 1) deeds ∧
      page.scene.value 1 = true ∧ page.tellings 1 deeds = [false, true] ∧
      ¬ page.FlipsUntold 1 deeds := by
  intro page deeds
  have opens : flickering.Opens := ⟨⟨Tree.empty, .standard, rfl⟩, rfl, rfl⟩
  have heard : page.IsHeardBy 1 (.host 1 1) deeds := by
    unfold IsHeardBy
    decide +kernel
  have value : page.scene.value 1 = true := by decide +kernel
  have told : page.tellings 1 deeds = [false, true] := by decide +kernel
  have done : 1 ∉ (page.afterDeeds deeds).undelivered := by decide +kernel
  have law := (tellings_alternate_iff opens (tuned 1) heard).2 done
  rw [value, told] at law
  exact ⟨opens, heard, value, told, (law.mp (by decide)).2⟩

/--
The script of the listener that is told first hides the element again that was just
shown.  The other monitor flips back while it is on the list, and its listener is told
twice that it holds, as it did when the listener came.
-/
theorem told_unchanged_twice :
    let page := flickering.afterDeeds (tuned 0)
    let deeds : List Deed := .ask (.reveal 0 true) :: List.replicate 20 .step
    flickering.Opens ∧ page.IsHeardBy 1 (.host 1 1) deeds ∧
      page.scene.isAlive page.pinned 1 = true ∧ page.scene.value 1 = true ∧
      page.tellings 1 deeds = [true, true] ∧
      ¬ (page.scene.value 1 :: page.tellings 1 deeds).IsChain (· ≠ ·) := by
  intro page deeds
  have opens : flickering.Opens := ⟨⟨Tree.empty, .standard, rfl⟩, rfl, rfl⟩
  have heard : page.IsHeardBy 1 (.host 1 1) deeds := by
    unfold IsHeardBy
    decide +kernel
  have alive : page.scene.isAlive page.pinned 1 = true := by decide +kernel
  have value : page.scene.value 1 = true := by decide +kernel
  have told : page.tellings 1 deeds = [true, true] := by decide +kernel
  refine ⟨opens, heard, alive, value, told, ?_⟩
  rw [value, told]
  decide

end Page

end Hydration
