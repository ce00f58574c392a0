import Hydration.Visibility
import Mathlib.Data.List.Nodup

/-!
# What is known of visible elements

Each element has at most one entry, so that showing, watching and forgetting
change what is known of one element and of no other.  Forgetting an entry loses
nothing: a hidden element that nobody watches looks like one without an entry.
-/

namespace Hydration.Visibility

/-- No element has two entries. -/
def Distinct (visibility : Visibility) : Prop :=
  (visibility.entries.map VisibilityEntry.element).Nodup

variable {visibility : Visibility} {element other : Nat}

/-- Updating an entry makes it if need be and touches no other. -/
theorem find?_update
    (change : VisibilityEntry → VisibilityEntry)
    (keeps : ∀ entry, (change entry).element = entry.element)
    (entries : List VisibilityEntry) :
    (update element change entries).find? (fun entry => entry.element = other) =
      if other = element then
        some (change ((entries.find? fun entry => entry.element = element).getD
          ⟨element, false, []⟩))
      else entries.find? fun entry => entry.element = other := by
  induction entries with
  | nil =>
      by_cases same : other = element
      · simp [update, keeps, same]
      · simp [update, keeps, same, Ne.symm same]
  | cons entry rest inductionHypothesis =>
      by_cases here : entry.element = element
      · by_cases same : other = element
        · simp [update, keeps, here, same]
        · simp [update, keeps, here, same, Ne.symm same]
      · by_cases found : entry.element = other
        · have different : other ≠ element := fun same => here (found.trans same)
          simp [update, found, different]
        · simp only [update, here, if_false, List.find?_cons, found, decide_false,
            inductionHypothesis]

theorem map_element_update
    (change : VisibilityEntry → VisibilityEntry)
    (keeps : ∀ entry, (change entry).element = entry.element)
    (entries : List VisibilityEntry) :
    (update element change entries).map VisibilityEntry.element =
      if element ∈ entries.map VisibilityEntry.element then
        entries.map VisibilityEntry.element
      else entries.map VisibilityEntry.element ++ [element] := by
  induction entries with
  | nil => simp [update, keeps]
  | cons entry rest inductionHypothesis =>
      by_cases here : entry.element = element
      · simp [update, keeps, here]
      · have elsewhere : element ≠ entry.element := Ne.symm here
        simp only [update, here, if_false, List.map_cons, inductionHypothesis, List.mem_cons,
          elsewhere, false_or]
        split <;> rfl

theorem distinct_update
    (distinct : visibility.Distinct)
    (change : VisibilityEntry → VisibilityEntry)
    (keeps : ∀ entry, (change entry).element = entry.element) :
    Distinct ⟨update element change visibility.entries⟩ := by
  unfold Distinct
  rw [map_element_update change keeps]
  split
  · exact distinct
  · next absent =>
      exact List.nodup_append.mpr ⟨distinct, List.nodup_singleton _, by
        intro known member added single
        rw [List.mem_singleton.mp single]
        rintro rfl
        exact absent member⟩

theorem distinct_set (distinct : visibility.Distinct) (element : Nat) (visible : Bool) :
    (visibility.set element visible).Distinct :=
  distinct_update distinct _ fun _ => rfl

theorem distinct_watch (distinct : visibility.Distinct) (element monitor : Nat) :
    (visibility.watch element monitor).Distinct :=
  distinct_update distinct _ fun _ => rfl

theorem distinct_prune (distinct : visibility.Distinct) (alive : Nat → Bool) :
    (visibility.prune alive).Distinct := by
  unfold Distinct at distinct ⊢
  have kept : (visibility.entries.map VisibilityEntry.element) =
      (visibility.entries.map fun entry =>
        { entry with watchers := entry.watchers.filter alive }).map VisibilityEntry.element := by
    simp [Function.comp_def]
  rw [kept] at distinct
  exact distinct.sublist (List.filter_sublist.map _)

/-- The entry that is left of an element is its old one without the watchers that have ended. -/
theorem entry?_prune (distinct : visibility.Distinct) (alive : Nat → Bool) (element : Nat) :
    Visibility.entry? (visibility.prune alive) element =
      ((visibility.entry? element).map fun entry =>
        { entry with watchers := entry.watchers.filter alive }).filter fun entry =>
          entry.visible || !entry.watchers.isEmpty := by
  obtain ⟨entries⟩ := visibility
  unfold entry? prune
  unfold Distinct at distinct
  induction entries with
  | nil => rfl
  | cons entry rest inductionHypothesis =>
      obtain ⟨alone, distinct⟩ := List.nodup_cons.mp distinct
      have later := inductionHypothesis distinct
      by_cases here : entry.element = element
      · have absent : rest.find? (fun entry => entry.element = element) = none := by
          rw [List.find?_eq_none]
          intro other member same
          apply alone
          rw [here]
          exact List.mem_map.mpr ⟨other, member, by simpa using same⟩
        rw [absent] at later
        rw [List.map_cons, List.filter_cons]
        split
        · next stays => simp [here, Option.filter, stays]
        · next goes =>
            rw [later]
            simp [here, Option.filter, goes]
      · rw [List.map_cons, List.filter_cons]
        split
        · simpa [here] using later
        · simpa [here] using later

theorem entry?_set (visible : Bool) :
    Visibility.entry? (visibility.set element visible) other =
      if other = element then
        some { (visibility.entry? element).getD ⟨element, false, []⟩ with visible }
      else visibility.entry? other :=
  find?_update (fun entry => { entry with visible }) (fun _ => rfl) visibility.entries

theorem entry?_watch (monitor : Nat) :
    Visibility.entry? (visibility.watch element monitor) other =
      if other = element then
        some
          { (visibility.entry? element).getD ⟨element, false, []⟩ with
            watchers :=
              ((visibility.entry? element).getD ⟨element, false, []⟩).watchers ++ [monitor] }
      else visibility.entry? other :=
  find?_update (fun entry => { entry with watchers := entry.watchers ++ [monitor] })
    (fun _ => rfl) visibility.entries

theorem isVisible_set (visible : Bool) :
    (visibility.set element visible).isVisible other =
      if other = element then visible else visibility.isVisible other := by
  simp only [isVisible, entry?_set]
  split <;> rfl

theorem watchers_set (visible : Bool) :
    (visibility.set element visible).watchers other = visibility.watchers other := by
  simp only [watchers, entry?_set]
  split
  · next same =>
      subst same
      cases visibility.entry? other <;> rfl
  · rfl

theorem isVisible_watch (monitor : Nat) :
    (visibility.watch element monitor).isVisible other = visibility.isVisible other := by
  simp only [isVisible, entry?_watch]
  split
  · next same =>
      subst same
      cases visibility.entry? other <;> rfl
  · rfl

theorem watchers_watch (monitor : Nat) :
    (visibility.watch element monitor).watchers other =
      if other = element then visibility.watchers other ++ [monitor]
      else visibility.watchers other := by
  simp only [watchers, entry?_watch]
  split
  · next same =>
      subst same
      cases visibility.entry? other <;> rfl
  · rfl

theorem isVisible_prune (distinct : visibility.Distinct) (alive : Nat → Bool) :
    (visibility.prune alive).isVisible element = visibility.isVisible element := by
  simp only [isVisible, entry?_prune distinct]
  cases visibility.entry? element with
  | none => rfl
  | some entry =>
      cases seen : entry.visible with
      | true => simp [Option.filter, seen]
      | false =>
          simp only [Option.map_some, Option.filter, Option.getD_some, seen]
          split
          · rfl
          · rfl

theorem watchers_prune (distinct : visibility.Distinct) (alive : Nat → Bool) :
    (visibility.prune alive).watchers element = (visibility.watchers element).filter alive := by
  simp only [watchers, entry?_prune distinct]
  cases visibility.entry? element with
  | none => rfl
  | some entry =>
      simp only [Option.map_some, Option.filter, Option.getD_some]
      split
      · rfl
      · next gone =>
          simp only [Bool.or_eq_true, Bool.not_eq_true', not_or, Bool.not_eq_false,
            List.isEmpty_iff] at gone
          simp [gone.2]

/-- An entry is the one that is found for its element. -/
theorem entry?_of_mem
    {entry : VisibilityEntry}
    (distinct : visibility.Distinct)
    (member : entry ∈ visibility.entries) :
    visibility.entry? entry.element = some entry := by
  obtain ⟨entries⟩ := visibility
  unfold Distinct at distinct
  unfold entry?
  dsimp only at distinct member ⊢
  induction entries with
  | nil => cases member
  | cons first rest inductionHypothesis =>
      obtain ⟨alone, distinct⟩ := List.nodup_cons.mp distinct
      rcases List.mem_cons.mp member with rfl | later
      · exact List.find?_cons_of_pos (decide_eq_true rfl)
      · have other : first.element ≠ entry.element :=
          fun same => alone (List.mem_map.mpr ⟨entry, later, same.symm⟩)
        rw [List.find?_cons_of_neg (by simpa using other)]
        exact inductionHypothesis distinct later

/-- An entry that was not forgotten is visible or has watchers, which all live. -/
theorem mem_prune
    {alive : Nat → Bool}
    {entry : VisibilityEntry}
    (member : entry ∈ (visibility.prune alive).entries) :
    (entry.visible ∨ entry.watchers ≠ []) ∧ ∀ key ∈ entry.watchers, alive key := by
  obtain ⟨among, kept⟩ := List.mem_filter.mp member
  obtain ⟨was, _, rfl⟩ := List.mem_map.mp among
  refine ⟨?_, fun key watches => (List.mem_filter.mp watches).2⟩
  simpa [Bool.or_eq_true] using kept

/-- An entry after a watcher was added has it, or it is of another element. -/
theorem mem_watch
    {monitor : Nat}
    {entry : VisibilityEntry}
    (member : entry ∈ (visibility.watch element monitor).entries) :
    entry ∈ visibility.entries ∨ monitor ∈ entry.watchers := by
  obtain ⟨entries⟩ := visibility
  unfold watch at member
  dsimp only at member ⊢
  induction entries with
  | nil =>
      rw [update, List.mem_singleton] at member
      exact .inr (by simp [member])
  | cons first rest inductionHypothesis =>
      rw [update] at member
      split at member
      · rcases List.mem_cons.mp member with rfl | later
        · exact .inr (by simp)
        · exact .inl (List.mem_cons_of_mem _ later)
      · rcases List.mem_cons.mp member with rfl | later
        · exact .inl List.mem_cons_self
        · exact (inductionHypothesis later).imp_left (List.mem_cons_of_mem _)

end Hydration.Visibility
