import Hydration.Proofs.Pairs.Listing
import Hydration.Proofs.Resting

/-!
# One pass over elements

A pass looks at one element after the other, and reads from each the text it
carries when its turn comes.  Between two elements the binding that was made is
started, and scripts may do anything but hydrate: bindings mount, fail or end,
and the tree may change.  None of this changes which pairs are bound.
-/

namespace Hydration

namespace Page

/-- The pair that an element with a text is to be bound as: not blank, and not bound yet. -/
def pairOf? (page : Page) (text : Option String) (element : ElementId) :
    Option (ElementId × String) :=
  (text.map Text.trimmed).bind fun label =>
    if label = "" ∨ page.isBound element label then none else some (element, label)

variable {page base after : Page} {hooks : Hooks} {elements rest : List ElementId}
  {element : ElementId} {outer : List Call}

theorem pairOf?_read (page : Page) (hooks : Hooks) (element : ElementId) :
    page.pairOf? (hooks.readName.read page.scene.tree element) element =
      (page.labelOf? hooks element).map (element, ·) := by
  unfold pairOf? labelOf?
  cases (hooks.readName.read page.scene.tree element).map Text.trimmed with
  | none => rfl
  | some label =>
      simp only [Option.bind_some, Bool.or_eq_true, String.isEmpty_iff]
      split <;> rfl

/-- Whether a pair is bound already depends on the pairs alone. -/
theorem pairOf?_congr
    (same : ∀ label, after.isBound element label = page.isBound element label)
    (text : Option String) :
    after.pairOf? text element = page.pairOf? text element := by
  simp only [pairOf?, same]

theorem newBindings_eq (page earlier : Page) :
    page.newBindings earlier =
      List.range' earlier.bindings.size (page.bindings.size - earlier.bindings.size) := by
  rw [newBindings, List.range_eq_range', List.drop_range']
  simp

/-- What remains while tame calls come and go. -/
theorem Remains.step
    {call : Call}
    {inner : List Call}
    (remains : base.Remains page)
    (stack : page.stack = call :: inner ++ base.stack)
    (tame : base.IsTame) :
    base.Remains page.step := by
  obtain ⟨added, pushed, gentle⟩ := remains.stack
  obtain rfl : added = call :: inner := List.append_cancel_right (pushed.symm.trans stack)
  have calls := List.forall_mem_cons.mp (gentle tame)
  have popped : base.Remains { page with stack := inner ++ base.stack } :=
    ⟨remains.hooks, remains.modules, remains.size, remains.bond, remains.scripts, inner, rfl,
      fun _ => calls.2⟩
  rw [step_of_stack stack]
  exact popped.trans (.carryOn _ calls.1)

/-- Tame calls come to their end, and hydration knows what it knew before them. -/
theorem settles_tame
    {inner : List Call}
    (tame : page.IsTame)
    (stack : page.stack = inner ++ outer)
    (gentle : ∀ call ∈ inner, call.isTame) :
    ∃ after, page.Leads after ∧ after.stack = outer ∧
      ({ page with stack := outer } : Page).Remains after := by
  have begins : ({ page with stack := outer } : Page).Remains page :=
    ⟨rfl, rfl, rfl, fun _ => rfl, id, inner, stack, fun _ => gentle⟩
  exact unwinds (fun page call inner stack remains => remains.step stack tame) page inner stack
    begins

/-- The binding that is made for an element has settled when the pass goes on. -/
theorem leads_of_bound
    {label : String}
    (tame : page.IsTame)
    (stack : page.stack = .hydrate hooks (element :: rest) :: outer)
    (bound : page.labelOf? hooks element = some label) :
    ∃ middle, page.Leads middle ∧ middle.stack = .hydrate hooks rest :: outer ∧
      (({ page with stack := .hydrate hooks rest :: outer } : Page).enlist
        (page.bindingOf hooks element label)).Remains middle := by
  have next := step_of_bound stack bound
  have calls : page.step.stack =
      [.request (.bind .start page.bindings.size)] ++ .hydrate hooks rest :: outer := by
    rw [next]
    rfl
  have tameNext : page.step.IsTame := by
    rw [next]
    exact tame
  obtain ⟨middle, leads, waits, remains⟩ :=
    settles_tame tameNext calls (by simp [Call.isTame, Request.isTame])
  rw [next] at remains
  exact ⟨middle, .step leads, waits, remains⟩

/-- The pairs that hydration knows once the binding of an element has settled. -/
theorem map_pair?_of_bound
    {middle : Page}
    {label : String}
    {stack : List Call}
    (listed : page.Listed)
    (remains :
      (({ page with stack } : Page).enlist (page.bindingOf hooks element label)).Remains middle) :
    middle.modules.map middle.pair? =
      page.modules.map page.pair? ++ [some (element, label)] := by
  have popped : ({ page with stack } : Page).Listed := ⟨listed.made, listed.nodup⟩
  rw [remains.modules, List.map_congr_left fun key _ => pair?_of_bond? (remains.bond key)]
  exact popped.map_pair?_enlist (page.bindingOf hooks element label)

/-- What a pass over elements leaves, with what was `read` from each at its turn. -/
structure Passes (hooks : Hooks) (elements : List ElementId) (read : ElementId → Option String)
    (page after : Page) : Prop where
  leads : page.Leads after
  tame : after.IsTame
  strategies : after.hooks = page.hooks
  texts :
    ∀ element ∈ elements, ∃ moment, page.Leads moment ∧ moment.Leads after ∧
      read element = hooks.readName.read moment.scene.tree element
  grown : page.bindings.size ≤ after.bindings.size
  pairs : ∀ key < page.bindings.size, after.pair? key = page.pair? key
  modules : after.modules = page.modules ++ after.newBindings page
  made :
    (after.newBindings page).map after.pair? =
      (elements.filterMap fun element => page.pairOf? (read element) element).map some

/-- The text of the element whose turn it is, with those of the others. -/
def readFirst (element : ElementId) (text : Option String) (read : ElementId → Option String) :
    ElementId → Option String :=
  fun other => if other = element then text else read other

theorem filterMap_readFirst
    (text : Option String)
    (read : ElementId → Option String)
    (fresh : element ∉ rest) :
    (rest.filterMap fun other =>
        page.pairOf? (readFirst element text read other) other) =
      rest.filterMap fun other => page.pairOf? (read other) other := by
  refine List.filterMap_congr fun other member => ?_
  have different : other ≠ element := by
    rintro rfl
    exact fresh member
  rw [readFirst, if_neg different]

theorem readFirst_self
    (element : ElementId)
    (text : Option String)
    (read : ElementId → Option String) :
    readFirst element text read element = text :=
  if_pos rfl

theorem Passes.texts_readFirst
    {middle : Page}
    {read : ElementId → Option String}
    (passes : middle.Passes hooks rest read after)
    (leads : page.Leads middle)
    (fresh : element ∉ rest) :
    ∀ other ∈ element :: rest, ∃ moment, page.Leads moment ∧ moment.Leads after ∧
      readFirst element (hooks.readName.read page.scene.tree element) read other =
        hooks.readName.read moment.scene.tree other := by
  refine List.forall_mem_cons.mpr ⟨?_, fun other member => ?_⟩
  · exact ⟨page, .here page, leads.trans passes.leads, readFirst_self _ _ _⟩
  · obtain ⟨moment, later, onward, reads⟩ := passes.texts other member
    have different : other ≠ element := by
      rintro rfl
      exact fresh member
    rw [readFirst, if_neg different]
    exact ⟨moment, leads.trans later, onward, reads⟩

/-- An element that is not to be bound is passed over. -/
theorem Passes.skip
    {read : ElementId → Option String}
    (passes :
      ({ page with stack := .hydrate hooks rest :: outer } : Page).Passes hooks rest read after)
    (stack : page.stack = .hydrate hooks (element :: rest) :: outer)
    (skipped : page.labelOf? hooks element = none)
    (fresh : element ∉ rest) :
    page.Passes hooks (element :: rest)
      (readFirst element (hooks.readName.read page.scene.tree element) read) after := by
  have leads : page.Leads { page with stack := .hydrate hooks rest :: outer } :=
    .step (step_of_skipped stack skipped ▸ .here _)
  refine ⟨leads.trans passes.leads, passes.tame, passes.strategies, ?_, passes.grown, passes.pairs,
    passes.modules, ?_⟩
  · exact passes.texts_readFirst leads fresh
  · rw [List.filterMap_cons, readFirst_self, pairOf?_read, skipped, filterMap_readFirst _ _ fresh]
    exact passes.made

/-- An element that is to be bound is bound, and its binding is started. -/
theorem Passes.bind
    {middle : Page}
    {label : String}
    {stack : List Call}
    {read : ElementId → Option String}
    (passes : middle.Passes hooks rest read after)
    (leads : page.Leads middle)
    (remains :
      (({ page with stack } : Page).enlist (page.bindingOf hooks element label)).Remains middle)
    (bound : page.labelOf? hooks element = some label)
    (fresh : element ∉ rest)
    (listed : page.Listed) :
    page.Passes hooks (element :: rest)
      (readFirst element (hooks.readName.read page.scene.tree element) read) after := by
  have size : middle.bindings.size = page.bindings.size + 1 :=
    remains.size.trans (Table.size_push _ _)
  have pair (key : BindingId) (known : key < middle.bindings.size) :
      after.pair? key =
        if key = page.bindings.size then some (element, label) else page.pair? key := by
    rw [passes.pairs key known, pair?_of_bond? (remains.bond key), pair?_enlist]
    rfl
  have news : after.newBindings page = page.bindings.size :: after.newBindings middle := by
    have grown := passes.grown
    rw [newBindings_eq, newBindings_eq, size]
    obtain ⟨more, enough⟩ := Nat.exists_eq_add_of_le grown
    rw [enough, size]
    have first : page.bindings.size + 1 + more - page.bindings.size = more + 1 := by omega
    have others : page.bindings.size + 1 + more - (page.bindings.size + 1) = more := by omega
    rw [first, others, List.range'_succ]
  have unbound {other : ElementId} (different : other ≠ element) (text : Option String) :
      middle.pairOf? text other = page.pairOf? text other := by
    refine pairOf?_congr (fun known => ?_) text
    rw [Bool.eq_iff_iff, isBound_iff, isBound_iff, map_pair?_of_bound listed remains, List.mem_append, List.mem_singleton]
    simp [different]
  refine ⟨leads.trans passes.leads, passes.tame,
    passes.strategies.trans remains.hooks, passes.texts_readFirst leads fresh, ?_, ?_, ?_, ?_⟩
  · exact Nat.le_of_succ_le (size.symm.trans_le passes.grown)
  · intro key old
    have known : key < middle.bindings.size := by
      rw [size]
      exact Nat.lt_succ_of_lt old
    rw [pair key known, if_neg (Nat.ne_of_lt old)]
  · rw [passes.modules, remains.modules, news, enlist, List.append_assoc, List.singleton_append]
  · have known : page.bindings.size < middle.bindings.size := by
      rw [size]
      exact Nat.lt_succ_self _
    rw [List.filterMap_cons, readFirst_self, pairOf?_read, bound, filterMap_readFirst _ _ fresh,
      news, List.map_cons, pair _ known, if_pos rfl, passes.made]
    refine congrArg (some (element, label) :: List.map some ·)
      (List.filterMap_congr fun other member => ?_)
    refine unbound ?_ _
    rintro rfl
    exact fresh member

/-- A pass binds each element that is to be bound when its turn comes, in order. -/
theorem passes
    (listed : page.Listed)
    (tame : page.IsTame)
    (distinct : elements.Nodup)
    (stack : page.stack = .hydrate hooks elements :: outer) :
    ∃ after read, page.Passes hooks elements read after ∧ after.stack = outer := by
  induction elements generalizing page with
  | nil =>
      have next : page.step = { page with stack := outer } := step_of_stack stack
      refine ⟨{ page with stack := outer }, fun _ => none, ?_, rfl⟩
      refine ⟨.step (next ▸ .here _), tame, rfl, by simp, Nat.le_refl _, fun _ _ => rfl, ?_, ?_⟩
      · simp [newBindings_eq]
      · simp [newBindings_eq]
  | cons element rest inductionHypothesis =>
      obtain ⟨fresh, others⟩ := List.nodup_cons.mp distinct
      cases found : page.labelOf? hooks element with
      | none =>
          have skipped : ({ page with stack := .hydrate hooks rest :: outer } : Page).Listed :=
            ⟨listed.made, listed.nodup⟩
          obtain ⟨after, read, passes, done⟩ := inductionHypothesis skipped tame others rfl
          exact ⟨after, _, passes.skip stack found fresh, done⟩
      | some label =>
          obtain ⟨middle, leads, waits, remains⟩ := leads_of_bound tame stack found
          obtain ⟨after, read, passes, done⟩ :=
            inductionHypothesis (leads.listed listed) (remains.scripts tame) others waits
          exact ⟨after, _, passes.bind leads remains found fresh listed, done⟩

end Page

end Hydration
