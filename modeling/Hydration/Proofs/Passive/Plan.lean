import Hydration.Proofs.Life.Instances
import Hydration.Proofs.Life.Sheltered
import Hydration.Proofs.Passive.Course

/-!
# What is still to be done

While nobody comes between the calls of a binding, those that are left tell how
its course goes on.  Notices come first; apart from them at most one or two
calls are left, and a plan lists what they can be.
-/

namespace Hydration

/-- The signs of building an instance that were given when a stage is reached. -/
def Stage.signs : Stage → List Sign
  | choosing _ | equipping _ => []
  | building _ => [.constructing]
  | fitting occupant => [.constructing, .constructed occupant.isRemovable]

/-- Whether a call takes an instance out, follows on that, or ends the binding. -/
def Call.leaves : Call → Bool
  | teardown _ | dismantle _ | vacated _ | remount _ | bury _ => true
  | _ => false

/-- What is left after an unmount is nothing, or the end of the binding. -/
inductive Resumes (key : BindingId) (word : List Sign) : List Call → Prop where
  | alone
      (course : Course word .idle) :
      Resumes key word []
  | ending
      (course : Course (word ++ Sign.closing) .ended) :
      Resumes key word [.bury key]

/--
The calls left of a binding besides the notices that come first, and the signs
given by the time they are next.
-/
inductive Plan (key : BindingId) (phase : Phase) (wanted : Bool) (attempt : Nat)
    (occupant : Option Occupant) : List Call → List Sign → Prop where
  | still
      {word : List Sign}
      (standing : Standing)
      (course : Course word standing)
      (describes : standing.Describes phase occupant) :
      Plan key phase wanted attempt occupant [] word
  | launching
      {word : List Sign}
      (course : Course word .awaiting)
      (describes : Standing.awaiting.Describes phase occupant) :
      Plan key phase wanted attempt occupant [.launch key attempt] word
  | arriving
      {word : List Sign}
      {standing : Standing}
      (number : Nat)
      (outcome : Except MountFault Module)
      (course : Course word standing)
      (describes : standing.Describes phase occupant) :
      Plan key phase wanted attempt occupant [.arrive key number outcome] word
  | constructing
      {word : List Sign}
      (number : Nat)
      (stage : Stage)
      (course : Course word .awaiting)
      (describes : Standing.awaiting.Describes phase occupant) :
      Plan key phase wanted attempt occupant [.construct key number stage] (word ++ stage.signs)
  | settling
      {word : List Sign}
      {removable : Bool}
      (course : Course word (.mounted removable))
      (describes : (Standing.mounted removable).Describes phase occupant) :
      Plan key phase wanted attempt occupant [.settle key] word
  | tearing
      {word : List Sign}
      {removable : Bool}
      {outer : List Call}
      (resumes : Resumes key (word ++ Sign.unmounting removable) outer)
      (describes : (Standing.mounted removable).Describes phase occupant)
      (unwanted : wanted = false) :
      Plan key phase wanted attempt occupant (.teardown key :: outer) word
  | dismantling
      {word : List Sign}
      {removable : Bool}
      {outer : List Call}
      (resumes : Resumes key (word ++ (Sign.removing removable ++ Sign.vacating)) outer)
      (describes : (Standing.mounted removable).Describes phase occupant)
      (unwanted : wanted = false) :
      Plan key phase wanted attempt occupant (.dismantle key :: outer) word
  | vacating
      {word : List Sign}
      {outer : List Call}
      (resumes : Resumes key (word ++ Sign.vacating) outer)
      (mounted : phase = .mounted)
      (vacant : occupant = none)
      (unwanted : wanted = false) :
      Plan key phase wanted attempt occupant (.vacated key :: outer) word
  | remounting
      {word : List Sign}
      {outer : List Call}
      (resumes : Resumes key word outer)
      (describes : Standing.idle.Describes phase occupant)
      (unwanted : wanted = false) :
      Plan key phase wanted attempt occupant (.remount key :: outer) word
  | retiring
      {word : List Sign}
      (standing : Standing)
      (course : Course word standing)
      (describes : standing.Describes phase occupant)
      (living : standing ≠ .ended) :
      Plan key phase wanted attempt occupant [.retire key]
        (word ++ [.noticed .willDestroy none])
  | burying
      {word : List Sign}
      (course : Course (word ++ Sign.closing) .ended)
      (vacant : occupant = none)
      (unwanted : wanted = false) :
      Plan key phase wanted attempt occupant [.bury key] word

namespace Plan

variable
  {key : BindingId} {phase : Phase} {wanted : Bool} {attempt : Nat}
  {occupant : Option Occupant} {others : List Call} {word : List Sign}

/-- Where a plan leaves nothing to be done the course goes on from where it stands. -/
theorem stands
    (plan : Plan key phase wanted attempt occupant [] word) :
    ∃ standing, Course word standing ∧ standing.Describes phase occupant := by
  cases plan with
  | still standing course describes => exact ⟨standing, course, describes⟩

/-- What is left once an instance has left. -/
theorem resume
    (resumes : Resumes key word others)
    (describes : Standing.idle.Describes phase occupant)
    (unwanted : wanted = false) :
    Plan key phase wanted attempt occupant others word := by
  cases resumes with
  | alone course => exact .still _ course describes
  | ending course => exact .burying course describes.2 unwanted

end Plan

namespace Life

/-- The calls left of a binding are notices to be given first, and then what is planned. -/
def Planned (key : BindingId) (life : Life) : Prop :=
  ∃ (notices : List (Notice × Option MountFault)) (others : List Call),
    life.calls = notices.map (fun entry => .notice key entry.1 entry.2) ++ others ∧
      Plan key life.phase life.wanted life.attempt life.occupant others
        (life.signs key ++ notices.map fun entry => .noticed entry.1 entry.2)

variable {key : BindingId} {before after : Life} {call : Call} {rest : List Call}

/-- A plan without notices to be given first. -/
theorem Planned.of_plan
    {word : List Sign}
    (signs : after.signs key = word)
    (plan : Plan key after.phase after.wanted after.attempt after.occupant after.calls word) :
    after.Planned key := by
  subst signs
  exact ⟨[], after.calls, rfl, by simpa using plan⟩

/-- Notices that are to be given first, with what is planned after them. -/
theorem Planned.of_notices
    {word : List Sign}
    (notices : List (Notice × Option MountFault))
    (others : List Call)
    (calls :
      after.calls = notices.map (fun entry => .notice key entry.1 entry.2) ++ others)
    (signs : (after.signs key ++ notices.map fun entry => .noticed entry.1 entry.2) = word)
    (plan : Plan key after.phase after.wanted after.attempt after.occupant others word) :
    after.Planned key := by
  subst signs
  exact ⟨notices, others, calls, plan⟩

theorem Begins.planned
    {life : Life}
    (begins : life.Begins) :
    life.Planned key := by
  have signs : life.signs key = [] := by
    simp [Life.signs, begins.events]
  refine .of_plan signs ?_
  rw [begins.calls]
  exact .still .idle .fresh ⟨begins.phase, begins.occupant⟩

/-- While no call is under way the course of a binding has come to where it stands. -/
theorem Planned.stands
    (planned : before.Planned key)
    (idle : before.calls = []) :
    ∃ standing, Course (before.signs key) standing ∧
      standing.Describes before.phase before.occupant := by
  obtain ⟨notices, others, calls, plan⟩ := planned
  rw [idle] at calls
  obtain ⟨noNotices, rfl⟩ := List.append_eq_nil_iff.mp calls.symm
  obtain rfl : notices = [] := List.map_eq_nil_iff.mp noNotices
  rw [List.map_nil, List.append_nil] at plan
  exact plan.stands

theorem Planned.occupied
    (planned : before.Planned key)
    (idle : before.calls = [])
    (mounted : before.phase = .mounted) :
    ∃ occupant, before.occupant = some occupant := by
  obtain ⟨standing, _, describes⟩ := planned.stands idle
  cases standing with
  | mounted =>
      obtain ⟨_, occupant, inPlace, _⟩ := describes
      exact ⟨occupant, inPlace⟩
  | idle | awaiting | ended => cases mounted.symm.trans describes.1

theorem Disturbed.planned
    (happened : Disturbed key before after)
    (idle : before.calls = [])
    (planned : before.Planned key) :
    after.Planned key := by
  obtain ⟨standing, course, describes⟩ := planned.stands idle
  cases happened with
  | aside | born | wish | forgo =>
      refine .of_plan rfl ?_
      rw [idle]
      exact .still _ course describes
  | attempt _ _ unmounted =>
      cases standing with
      | idle =>
          refine .of_notices [(.willMount, none)] [.launch key (before.attempt + 1)] ?_ rfl ?_
          · simp [begin, idle]
          · exact .launching course.attempt ⟨rfl, describes.2⟩
      | awaiting | mounted | ended => cases unmounted.symm.trans describes.1
  | revoke _ _ mounted =>
      cases standing with
      | mounted removable =>
          refine .of_plan rfl ?_
          simp only [push, idle]
          exact .tearing (.alone course.unmount) describes rfl
      | idle | awaiting | ended => cases mounted.symm.trans describes.1
  | doom _ _ living =>
      refine .of_notices [(.willDestroy, none)] [.retire key] (by simp [push, idle]) rfl ?_
      refine .retiring standing course describes ?_
      rintro rfl
      exact living describes.1
  | complain _ _ living fault =>
      refine .of_notices [(.mountError, some (.configuration fault)),
        (.onMountError, some (.configuration fault))] [] (by simp [push, idle]) rfl ?_
      refine .still standing (course.report fault ?_) describes
      rintro rfl
      exact living describes.1
  | land life attempt outcome =>
      refine .of_plan rfl ?_
      have idle : life.calls = [] := idle
      simp only [push, idle]
      exact .arriving attempt outcome course describes

/-- The signs of taking an instance down are those of its destructor. -/
theorem signs_removal
    {life : Life}
    {removable : Bool}
    (describes : (Standing.mounted removable).Describes life.phase life.occupant) :
    ((life.removal key).filterMap (Event.sign? key)).reverse = Sign.removing removable := by
  obtain ⟨_, inPlace, occupant, rfl⟩ := describes
  cases taken : inPlace.destructor <;>
    simp [removal, occupant, taken, Occupant.isRemovable, Sign.removing, Event.sign?]

/-- What is left after a notice was given is as planned. -/
theorem Planned.noticed
    {notice : Notice}
    {fault : Option MountFault}
    {more : List (Notice × Option MountFault)}
    {others : List Call}
    (happened : Carried key (.notice key notice fault) { before with calls := rest } after)
    (calls : rest = more.map (fun entry => .notice key entry.1 entry.2) ++ others)
    (plan :
      Plan key before.phase before.wanted before.attempt before.occupant others
        (before.signs key ++
          ((notice, fault) :: more).map fun entry => .noticed entry.1 entry.2)) :
    after.Planned key := by
  cases happened with
  | notice =>
      refine .of_notices more others calls ?_ plan
      simp [Life.signs, Event.sign?]

/-- A failed attempt leaves only its report to be given. -/
theorem Planned.of_fail
    {word called : List Sign}
    (number : Nat)
    (fault : MountFault)
    (told : before.signs key = word ++ called)
    (once : called = [] ∨ called = [.constructing])
    (course : Course word .awaiting)
    (vacant : before.occupant = none) :
    (({ before with calls := [] } : Life).fail key number fault).Planned key := by
  refine .of_notices [(.mountError, some fault), (.onMountError, some fault)] [] rfl ?_
    (.still .idle (course.failure fault once) ⟨rfl, vacant⟩)
  rw [Life.signs] at told
  simp [fail, Life.signs, Event.sign?, told, Sign.reporting]

theorem Carried.planned_construct
    {number : Nat}
    {stage : Stage}
    {word : List Sign}
    (happened : Carried key (.construct key number stage) { before with calls := [] } after)
    (told : before.signs key = word ++ stage.signs)
    (course : Course word .awaiting)
    (describes : Standing.awaiting.Describes before.phase before.occupant) :
    after.Planned key := by
  rw [Life.signs] at told
  cases happened with
  | constructFault _ _ _ fault early =>
      cases stage with
      | choosing | equipping =>
          exact .of_fail number fault told (.inl rfl) course describes.2
      | building =>
          exact .of_fail number fault told (.inr rfl) course describes.2
      | fitting occupant => exact (early occupant rfl).elim
  | choose _ _ _ chosen asked onlyArguments =>
      have silent : asked.filterMap (Event.sign? key) = [] := by
        rw [List.filterMap_eq_nil_iff]
        intro event member
        rw [onlyArguments event member]
        rfl
      refine .of_plan ?_ (.constructing number (.equipping chosen) course describes)
      simpa [push, Life.signs, silent, Stage.signs] using told
  | equip _ _ chosen =>
      refine .of_plan ?_ (.constructing number (.building chosen) course describes)
      simp [push, Life.signs, Event.sign?, told, Stage.signs]
  | build _ _ _ occupant =>
      refine .of_plan ?_ (.constructing number (.fitting occupant) course describes)
      simp [push, Life.signs, Event.sign?, told, Stage.signs]
  | moveIn _ _ occupant =>
      refine .of_notices [(.didMount, none), (.onMount, none)] [.settle key] rfl ?_
        (.settling (course.mount occupant.isRemovable) ⟨rfl, occupant, rfl, rfl⟩)
      simp [push, Life.signs, told, Stage.signs]

theorem Carried.planned_retire
    {word : List Sign}
    (standing : Standing)
    (happened : Carried key (.retire key) { before with calls := [] } after)
    (told : before.signs key = word ++ [.noticed .willDestroy none])
    (course : Course word standing)
    (describes : standing.Describes before.phase before.occupant)
    (living : standing ≠ .ended) :
    after.Planned key := by
  cases happened with
  | retireMounted _ mounted =>
      cases standing with
      | mounted removable =>
          refine .of_plan told (.tearing (.ending ?_) describes rfl)
          simpa using course.destroyMounted
      | idle | awaiting | ended => cases mounted.symm.trans describes.1
  | retire _ vacant =>
      cases standing with
      | idle =>
          refine .of_plan told (.burying ?_ describes.2 rfl)
          simpa using course.destroy (.inl rfl)
      | awaiting =>
          refine .of_plan told (.burying ?_ describes.2 rfl)
          simpa using course.destroy (.inr rfl)
      | mounted => exact (vacant describes.1).elim
      | ended => exact (living rfl).elim

theorem Carried.planned
    (calls : before.calls = call :: rest)
    (happened : Carried key call { before with calls := rest } after)
    (planned : before.Planned key) :
    after.Planned key := by
  obtain ⟨notices, others, shape, plan⟩ := planned
  cases notices with
  | cons first more =>
      rw [calls] at shape
      obtain ⟨rfl, later⟩ := List.cons.inj shape
      exact Planned.noticed happened later plan
  | nil =>
      rw [List.map_nil, List.append_nil] at plan
      obtain rfl : others = call :: rest := by
        rw [← calls, shape]
        rfl
      generalize told : before.signs key = word at plan
      cases plan with
      | launching course describes =>
          cases happened with
          | launchLate | launchWaits => exact .of_plan told (.still _ course describes)
          | launchLands _ _ _ outcome => exact .of_plan told (.arriving _ outcome course describes)
      | @arriving _ standing number outcome course describes =>
          cases happened with
          | arriveLate => exact .of_plan told (.still _ course describes)
          | arriveFault _ _ fault current =>
              cases standing with
              | awaiting =>
                  exact .of_fail number fault (told.trans (List.append_nil _).symm) (.inl rfl)
                    course describes.2
              | idle | mounted | ended => cases current.1.symm.trans describes.1
          | arriveModule _ _ module current =>
              cases standing with
              | awaiting =>
                  exact .of_plan (told.trans (List.append_nil _).symm)
                    (.constructing number (.choosing module) course describes)
              | idle | mounted | ended => cases current.1.symm.trans describes.1
      | constructing number stage course describes =>
          exact happened.planned_construct told course describes
      | settling course describes =>
          cases happened with
          | settleWanted => exact .of_plan told (.still _ course describes)
          | settleUnwanted _ unwanted =>
              exact .of_plan told (.tearing (.alone course.unmount) describes unwanted)
      | tearing resumes describes unwanted =>
          cases happened with
          | teardownLate _ vacant => exact (vacant describes.1).elim
          | teardown =>
              refine .of_notices [(.willUnmount, none)] (.dismantle key :: rest) rfl rfl
                (.dismantling ?_ describes unwanted)
              simpa [push, Life.signs, ← told, Sign.unmounting] using resumes
      | @dismantling _ removable _ resumes describes unwanted =>
          cases happened with
          | dismantleLate _ vacant => exact (vacant describes.1).elim
          | dismantle =>
              have removed :
                  ((removal key { before with calls := rest }).filterMap
                    (Event.sign? key)).reverse = Sign.removing removable :=
                signs_removal describes
              refine .of_plan rfl (.vacating ?_ describes.1 rfl unwanted)
              rw [Life.signs] at told
              simpa [push, Life.signs, told, removed] using resumes
      | vacating resumes _ vacant unwanted =>
          cases happened with
          | vacated =>
              refine .of_notices [(.didUnmount, none), (.onUnmount, none)] (.remount key :: rest)
                rfl rfl (.remounting ?_ ⟨rfl, vacant⟩ unwanted)
              simpa [push, Life.signs, ← told, Sign.vacating] using resumes
      | remounting resumes describes unwanted =>
          cases happened with
          | remountLate => exact .of_plan told (.resume resumes describes unwanted)
          | remount _ wanted => cases unwanted.symm.trans wanted
      | retiring standing course describes living =>
          exact happened.planned_retire standing told course describes living
      | burying course vacant =>
          cases happened with
          | bury =>
              refine .of_notices [(.didDestroy, none), (.onDestroy, none)] [] rfl rfl
                (.still .ended ?_ ⟨rfl, vacant⟩)
              simpa [push, Life.signs, ← told, Sign.closing] using course

/-- An instance leaves, and a binding ends, only when it is not wanted mounted. -/
theorem Planned.unwanted_of_leaves
    (planned : before.Planned key)
    (calls : before.calls = call :: rest)
    (leaves : call.leaves) :
    before.wanted = false := by
  obtain ⟨notices, others, shape, plan⟩ := planned
  rw [calls] at shape
  cases notices with
  | cons =>
      cases shape
      cases leaves
  | nil =>
      obtain rfl : others = _ := shape.symm
      generalize before.signs key ++ [].map _ = word at plan
      cases plan with
      | launching | arriving | constructing | settling | retiring => cases leaves
      | tearing _ _ unwanted | dismantling _ _ unwanted | vacating _ _ _ unwanted
      | remounting _ _ unwanted | burying _ _ unwanted => exact unwanted

/-- An instance is built in a binding that is mounting. -/
theorem Planned.mounting_of_construct
    {number : Nat}
    {stage : Stage}
    (planned : before.Planned key)
    (calls : before.calls = .construct key number stage :: rest) :
    before.phase = .mounting := by
  obtain ⟨notices, others, shape, plan⟩ := planned
  rw [calls] at shape
  cases notices with
  | cons => cases shape
  | nil =>
      obtain rfl : others = _ := shape.symm
      generalize before.signs key ++ [].map _ = word at plan
      cases plan with
      | constructing _ _ _ describes => exact describes.1

theorem Disturbed.destroyed
    (happened : Disturbed key before after)
    (destroyed : before.phase = .destroyed) :
    after.phase = .destroyed := by
  cases happened with
  | aside | born | doom | complain | land => exact destroyed
  | wish _ _ under | forgo _ _ under =>
      rcases under with phase | phase <;> cases phase.symm.trans destroyed
  | attempt _ _ unmounted => cases unmounted.symm.trans destroyed
  | revoke _ _ mounted => cases mounted.symm.trans destroyed

theorem Carried.destroyed_of_bury
    (happened : Carried key (.bury key) before after) :
    after.phase = .destroyed := by
  cases happened with
  | bury => rfl

/-- A binding that has ended stays so, as nothing that is planned brings it back. -/
theorem Carried.destroyed
    (calls : before.calls = call :: rest)
    (happened : Carried key call { before with calls := rest } after)
    (planned : before.Planned key)
    (destroyed : before.phase = .destroyed) :
    after.phase = .destroyed := by
  have elsewhere {phase : Phase} (other : before.phase = phase) (living : phase ≠ .destroyed) :
      False :=
    living (other.symm.trans destroyed)
  obtain ⟨notices, others, shape, plan⟩ := planned
  cases notices with
  | cons first more =>
      rw [calls] at shape
      obtain ⟨rfl, _⟩ := List.cons.inj shape
      cases happened with
      | notice => exact destroyed
  | nil =>
      obtain rfl : others = call :: rest := by
        rw [← calls, shape]
        rfl
      generalize before.signs key ++ [].map _ = word at plan
      cases plan with
      | launching _ describes | constructing _ _ _ describes | settling _ describes
      | tearing _ describes | dismantling _ describes | remounting _ describes =>
          exact (elsewhere describes.1 (by simp)).elim
      | vacating _ mounted => exact (elsewhere mounted (by simp)).elim
      | arriving =>
          cases happened with
          | arriveLate => exact destroyed
          | arriveFault _ _ _ current | arriveModule _ _ _ current =>
              exact (elsewhere current.1 (by simp)).elim
      | retiring =>
          cases happened with
          | retireMounted | retire => exact destroyed
      | burying =>
          cases happened with
          | bury => rfl

end Life

end Hydration
