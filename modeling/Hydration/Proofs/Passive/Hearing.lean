import Hydration.Proofs.Passive.Relaying

/-!
# What a binding makes of being told

A binding that is not wanted and not mounted, or that has ended, makes nothing of
being told that its context fails.  A mounted binding is unmounted by it once,
and makes nothing of being told again.
-/

namespace Hydration

namespace Life

variable
  {key : BindingId} {value : Bool} {times : Nat} {before after life : Life}
  {call : Call} {rest : List Call}

/-- A binding that settles carries on with its innermost call first. -/
theorem Settles.next
    (settles : before.Settles key after)
    (calls : before.calls = call :: rest) :
    ∃ middle, Carried key call { before with calls := rest } middle ∧ middle.Settles key after := by
  cases settles with
  | done idle => cases idle.symm.trans calls
  | carried known happened later =>
      cases calls.symm.trans known
      exact ⟨_, happened, later⟩

/-- A binding without calls has settled. -/
theorem Settles.eq_of_idle
    (settles : before.Settles key after)
    (idle : before.calls = []) :
    after = before := by
  cases settles with
  | done => rfl
  | carried calls => cases idle.symm.trans calls

/-- A notice is given and changes nothing else. -/
theorem Settles.notice
    {notice : Notice}
    {fault : Option MountFault}
    (settles : before.Settles key after)
    (calls : before.calls = .notice key notice fault :: rest) :
    ∃ middle : Life, middle.Settles key after ∧ middle.calls = rest ∧
      middle.phase = before.phase ∧ middle.wanted = before.wanted ∧
      middle.occupant = before.occupant ∧
      middle.signs key = before.signs key ++ [.noticed notice fault] := by
  obtain ⟨middle, happened, later⟩ := settles.next calls
  cases happened with
  | notice =>
      refine ⟨_, later, rfl, rfl, rfl, rfl, ?_⟩
      simp [Life.signs, Event.sign?]

/-- A binding makes nothing of being told a value that it minds already. -/
theorem told_of_minding
    (unwanted : life.wanted = false)
    (vacant : life.phase ≠ .mounted) :
    life.told key false = life := by
  have same : ({ life with wanted := false } : Life) = life := by
    rw [← unwanted]
  unfold told
  split
  · rfl
  · exact same
  · exact same
  · next mounted => exact (vacant mounted).elim

theorem told_of_destroyed
    (destroyed : life.phase = .destroyed)
    (value : Bool) :
    life.told key value = life := by
  simp [told, destroyed]

/-- A binding that makes nothing of being told is the same however often it is told. -/
theorem Heard.deaf
    (heard : before.Heard key value times after)
    (idle : before.calls = [])
    (deaf :
      ∀ instances,
        ({ before with instances } : Life).told key value = { before with instances }) :
    ∃ instances, after = { before with instances } := by
  induction heard with
  | never life => exact ⟨life.instances, rfl⟩
  | aside instances _ inductionHypothesis =>
      obtain ⟨_, rfl⟩ := inductionHypothesis idle deaf
      exact ⟨instances, rfl⟩
  | again _ _ _ settles inductionHypothesis =>
      obtain ⟨instances, rfl⟩ := inductionHypothesis idle deaf
      rw [deaf] at settles
      exact ⟨instances, settles.eq_of_idle idle⟩

theorem Heard.never_told
    (heard : before.Heard key value times after)
    (none : times = 0) :
    ∃ instances, after = { before with instances } := by
  induction heard with
  | never life => exact ⟨life.instances, rfl⟩
  | aside instances _ inductionHypothesis =>
      obtain ⟨_, rfl⟩ := inductionHypothesis none
      exact ⟨instances, rfl⟩
  | again => cases none

/-- A binding that has ended, or that is vacant and not wanted, is not moved by what it is told. -/
theorem Heard.unmoved
    (heard : before.Heard key value times after)
    (idle : before.calls = [])
    (unmoved :
      before.phase = .destroyed ∨
        value = false ∧ before.wanted = false ∧ before.phase ≠ .mounted) :
    ∃ instances, after = { before with instances } := by
  refine heard.deaf idle fun instances => ?_
  rcases unmoved with destroyed | ⟨rfl, unwanted, vacant⟩
  · have ended : ({ before with instances } : Life).phase = .destroyed := destroyed
    exact told_of_destroyed ended value
  · have still : ({ before with instances } : Life).wanted = false := unwanted
    exact told_of_minding still vacant

/-- An instance has left with these signs, and the binding is not wanted mounted any more. -/
structure Left (key : BindingId) (word : List Sign) (before after : Life) : Prop where
  phase : after.phase = .unmounted
  wanted : after.wanted = false
  occupant : after.occupant = none
  calls : after.calls = []
  signs : after.signs key = before.signs key ++ word

theorem Left.after_signs
    {middle : Life}
    {first word : List Sign}
    (left : middle.Left key word after)
    (signs : middle.signs key = before.signs key ++ first) :
    before.Left key (first ++ word) after :=
  ⟨left.phase, left.wanted, left.occupant, left.calls,
    by rw [left.signs, signs, List.append_assoc]⟩

/-- A binding that is not wanted is not mounted again once its instance has left. -/
theorem Settles.leave_remount
    (settles : before.Settles key after)
    (calls : before.calls = [.remount key])
    (unwanted : before.wanted = false)
    (unmounted : before.phase = .unmounted)
    (vacant : before.occupant = none) :
    before.Left key [] after := by
  obtain ⟨_, happened, settles⟩ := settles.next calls
  cases happened with
  | remount _ wanted => cases unwanted.symm.trans wanted
  | remountLate =>
      obtain rfl := settles.eq_of_idle rfl
      exact ⟨unmounted, unwanted, vacant, rfl, (List.append_nil _).symm⟩

theorem Settles.leave_vacated
    (settles : before.Settles key after)
    (calls : before.calls = [.vacated key])
    (unwanted : before.wanted = false)
    (vacant : before.occupant = none) :
    before.Left key Sign.vacating after := by
  obtain ⟨middle, happened, settles⟩ := settles.next calls
  cases happened with
  | vacated =>
      obtain ⟨first, settles, calls, phase, wanted, occupant, signs⟩ := settles.notice rfl
      obtain ⟨second, settles, callsToo, phaseToo, wantedToo, occupantToo, signsToo⟩ :=
        settles.notice calls
      have left := settles.leave_remount callsToo ((wantedToo.trans wanted).trans unwanted)
        (phaseToo.trans phase) ((occupantToo.trans occupant).trans vacant)
      have told : first.signs key = before.signs key ++ [.noticed .didUnmount none] := signs
      exact (left.after_signs signsToo).after_signs told

theorem Settles.leave_dismantle
    {occupant : Occupant}
    (settles : before.Settles key after)
    (calls : before.calls = [.dismantle key])
    (unwanted : before.wanted = false)
    (mounted : before.phase = .mounted)
    (inPlace : before.occupant = some occupant) :
    before.Left key (Sign.removing occupant.isRemovable ++ Sign.vacating) after := by
  obtain ⟨middle, happened, settles⟩ := settles.next calls
  cases happened with
  | dismantleLate _ vacant => exact (vacant mounted).elim
  | dismantle =>
      have left := settles.leave_vacated rfl unwanted rfl
      have removed :
          ((removal key { before with calls := [] }).filterMap (Event.sign? key)).reverse =
            Sign.removing occupant.isRemovable :=
        signs_removal ⟨mounted, occupant, inPlace, rfl⟩
      refine left.after_signs ?_
      rw [← removed]
      simp [push, Life.signs]

/-- The unmount of a binding that is not wanted any more runs through. -/
theorem Settles.leave
    {occupant : Occupant}
    (settles : before.Settles key after)
    (calls : before.calls = [.teardown key])
    (unwanted : before.wanted = false)
    (mounted : before.phase = .mounted)
    (inPlace : before.occupant = some occupant) :
    before.Left key (Sign.unmounting occupant.isRemovable) after := by
  obtain ⟨middle, happened, settles⟩ := settles.next calls
  cases happened with
  | teardownLate _ vacant => exact (vacant mounted).elim
  | teardown =>
      obtain ⟨first, settles, calls, phase, wanted, occupied, signs⟩ := settles.notice rfl
      have left := settles.leave_dismantle calls (wanted.trans unwanted) (phase.trans mounted)
        (occupied.trans inPlace)
      have told : first.signs key = before.signs key ++ [.noticed .willUnmount none] := signs
      exact left.after_signs told

/-- A mounted binding that is told that its context fails is unmounted once. -/
theorem Heard.leaves
    {occupant : Occupant}
    (heard : before.Heard key false times after)
    (idle : before.calls = [])
    (mounted : before.phase = .mounted)
    (inPlace : before.occupant = some occupant)
    (told : 0 < times) :
    before.Left key (Sign.unmounting occupant.isRemovable) after := by
  induction heard with
  | never => cases told
  | aside instances _ inductionHypothesis =>
      obtain ⟨phase, wanted, vacant, calls, signs⟩ := inductionHypothesis idle mounted inPlace told
      exact ⟨phase, wanted, vacant, calls, signs⟩
  | @again times before middle after earlier present quiet settles inductionHypothesis =>
      rcases Nat.eq_zero_or_pos times with none | often
      · obtain ⟨instances, rfl⟩ := earlier.never_told none
        have torn :
            ({ before with instances } : Life).told key false =
              { before with instances, wanted := false, calls := [.teardown key] } := by
          simp [Life.told, mounted, push, idle]
        rw [torn] at settles
        obtain ⟨phase, wanted, vacant, calls, signs⟩ := settles.leave rfl rfl mounted inPlace
        exact ⟨phase, wanted, vacant, calls, signs⟩
      · have left := inductionHypothesis idle mounted inPlace often
        rw [told_of_minding left.wanted (by simp [left.phase])] at settles
        obtain rfl := settles.eq_of_idle left.calls
        exact left

end Life

end Hydration
