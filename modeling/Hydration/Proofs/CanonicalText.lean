import Hydration.Proofs.Contexts.Reading
import Mathlib.Algebra.Order.BigOperators.Group.List
import Mathlib.Algebra.Order.Group.Nat

/-!
# The canonical text of a context

The canonical text of a context that was read from a text reads back as the same
context, unless one of its queries begins like a separator.  Such a query stood
behind a blank that does not begin a separator; in the canonical text it stands
behind a space, which does.

Conditions that are joined are cut where they were joined and nowhere else, unless
one of them is cut by itself.
-/

namespace Hydration

namespace Context

variable {name text : List Char}

/-- Whether a text begins with `and`, a blank and, behind further blanks, an `@`. -/
def OpensSeparator (text : List Char) : Prop :=
  ∃ gap blanks after, Text.isBlank gap ∧ (∀ blank ∈ blanks, Text.isBlank blank) ∧
    text = 'a' :: 'n' :: 'd' :: gap :: (blanks ++ '@' :: after)

/-- Behind a space a separator begins exactly where the text opens one. -/
theorem afterSeparator?_space_ne_none_iff {earlier : List Char} :
    afterSeparator? (' ' :: earlier) text ≠ none ↔ OpensSeparator text := by
  constructor
  · intro found
    obtain ⟨after, found⟩ := Option.ne_none_iff_exists'.mp found
    obtain ⟨_, gap, blanks, gapBlank, allBlank, shape⟩ := afterSeparator?_eq_some_iff.mp found
    exact ⟨gap, blanks, after, gapBlank, allBlank, shape⟩
  · rintro ⟨gap, blanks, after, gapBlank, allBlank, shape⟩ absent
    have found := afterSeparator?_eq_some_iff.mpr
      ⟨⟨' ', earlier, rfl, by decide⟩, gap, blanks, gapBlank, allBlank, shape⟩
    cases absent.symm.trans found

end Context

open Context

/--
A condition as reading gives it: the name of a kind of monitor and a query
without blanks at its ends, in which no separator begins but at its front.
-/
structure Condition.IsRead (condition : Condition) : Prop where
  named : IsName condition.monitor.toList
  trimmed : Text.trim condition.query.toList = condition.query.toList
  whole : ∀ passed rest, condition.query.toList = passed ++ rest → passed ≠ [] →
    afterSeparator? passed.reverse rest = none

/-- The canonical text of a condition behind its `@`. -/
def Condition.text (condition : Condition) : List Char :=
  condition.monitor.toList ++
    if condition.query.isEmpty then [] else ' ' :: condition.query.toList

theorem Condition.toList_render (condition : Condition) :
    condition.render.toList = '@' :: condition.text := by
  unfold render text
  split <;> simp


namespace Context

variable {condition : Condition} {conditions : List Condition}

/-- What is read from a term that is not cut any further. -/
theorem isRead_of_readTerm
    {term : List Char}
    (whole : ¬ IsCut [] term)
    (read : readTerm term = .ok condition) :
    condition.IsRead := by
  unfold readTerm at read
  dsimp only at read
  obtain ⟨first, last, around⟩ := Text.exists_eq_append_trim term
  generalize Text.trim term = body at read around
  split at read
  · cases read
  · next nonempty =>
      obtain ⟨named, shape⟩ := isName_of_splitName nonempty
      split at read
      · cases read
        refine ⟨by simpa using named, rfl, fun passed rest empty nonempty => ?_⟩
        exact (nonempty (List.append_eq_nil_iff.mp empty.symm).1).elim
      · next next others query =>
          split at read
          · cases read
            refine ⟨by simpa using named, by simp [Text.trim_trim], fun passed rest split => ?_⟩
            obtain ⟨gap, trail, within⟩ := Text.exists_eq_append_trim (splitName body).2
            rw [String.toList_ofList] at split
            rw [shape, within, split] at around
            subst around
            have wholeQuery : ¬ IsCut []
                (first ++ (splitName body).1 ++ gap ++ (passed ++ rest) ++ (trail ++ last)) := by
              simpa using whole
            exact afterSeparator?_of_not_isCut wholeQuery
          · cases read

theorem isRead_of_readTerms
    {terms : List (List Char)}
    (whole : ∀ term ∈ terms, ¬ IsCut [] term)
    (read : readTerms terms = .ok conditions) :
    ∀ condition ∈ conditions, condition.IsRead := by
  induction terms generalizing conditions with
  | nil =>
      cases read
      simp
  | cons term rest inductionHypothesis =>
      obtain ⟨first, others, readFirst, readRest, rfl⟩ := readTerms_cons_eq_ok_iff.mp read
      exact List.forall_mem_cons.mpr
        ⟨isRead_of_readTerm (whole term List.mem_cons_self) readFirst,
          inductionHypothesis (fun term member => whole term (List.mem_cons_of_mem _ member))
            readRest⟩

/-- The conditions of a context that was read. -/
theorem isRead_of_parseWith
    {source defaultMonitor : String}
    {context : Context}
    (read : parseWith source defaultMonitor = .ok context) :
    ∀ condition ∈ context.conditions, condition.IsRead := by
  unfold parseWith at read
  split at read
  · cases read
    simp [always]
  · split at read
    · cases read
    · next readAll =>
        cases read
        exact isRead_of_readTerms (fun term member => not_isCut_of_mem_terms member) readAll

end Context

namespace Condition

variable {condition : Condition}

theorem text_of_empty (empty : condition.query = "") :
    condition.text = condition.monitor.toList := by
  simp [text, empty]

theorem text_of_nonempty (nonempty : condition.query ≠ "") :
    condition.text = condition.monitor.toList ++ ' ' :: condition.query.toList := by
  simp [text, nonempty]

namespace IsRead

variable (read : condition.IsRead)

include read

theorem isBlank_of_mem {character : Char} (member : character ∈ condition.monitor.toList) :
    Text.isBlank character = false :=
  isBlank_of_isNameRest (read.named.isNameRest member)

theorem text_ne_nil : condition.text ≠ [] := by
  obtain ⟨first, rest, shape, _⟩ := read.named
  simp [text, shape]

theorem trimEnd_text : Text.trimEnd condition.text = condition.text := by
  refine List.rdropWhile_eq_self_iff.mpr fun nonempty => ?_
  by_cases empty : condition.query = ""
  · simp only [text_of_empty empty]
    simpa using read.isBlank_of_mem (List.getLast_mem _)
  · have firm : Text.trimEnd condition.query.toList = condition.query.toList := by
      rw [← read.trimmed, Text.trimEnd_trim]
    have query : condition.query.toList ≠ [] := by simpa using empty
    have last := List.rdropWhile_eq_self_iff.mp firm query
    simpa only [text_of_nonempty empty, List.getLast_append_of_ne_nil _ (List.cons_ne_nil _ _),
      List.getLast_cons query] using last

theorem trim_text : Text.trim condition.text = condition.text := by
  obtain ⟨first, rest, shape, starts, _⟩ := read.named
  have free := isBlank_of_isNameRest (isNameRest_of_isNameStart starts)
  have start : Text.trimStart condition.text = condition.text := by
    rw [text, shape, List.cons_append, Text.trimStart, List.dropWhile_cons_of_neg (by simp [free])]
  rw [Text.trim, start, read.trimEnd_text]

/-- The canonical text of a condition reads back. -/
theorem readTerm_text : readTerm condition.text = .ok condition := by
  have named : condition.monitor.toList ≠ [] := by
    obtain ⟨first, rest, shape, _⟩ := read.named
    simp [shape]
  by_cases empty : condition.query = ""
  · have split : splitName condition.text = (condition.monitor.toList, []) := by
      rw [text_of_empty empty, ← splitName_append read.named (by simp), List.append_nil]
    simp [readTerm, read.trim_text, split, named, ← empty]
  · have split : splitName condition.text =
        (condition.monitor.toList, ' ' :: condition.query.toList) := by
      rw [text_of_nonempty empty, splitName_append read.named]
      simp only [List.head?_cons, Option.some.injEq]
      rintro _ rfl
      decide
    have query : Text.trim (' ' :: condition.query.toList) = condition.query.toList := by
      rw [Text.trim, Text.trimStart, List.dropWhile_cons_of_pos (by decide)]
      exact read.trimmed
    simp [readTerm, read.trim_text, split, named, query, show Text.isBlank ' ' from by decide]

/-- The canonical text of a condition is cut just if its query opens a separator. -/
theorem isCut_text_iff :
    IsCut [] condition.text ↔ OpensSeparator condition.query.toList := by
  constructor
  · rintro ⟨passed, rest, shape, found⟩
    rw [List.append_nil] at found
    -- Within the name no blank has been passed.
    have beyond (within : passed <+: condition.monitor.toList) : False :=
      found (afterSeparator?_reverse_of_not_blank
        (fun last member => read.isBlank_of_mem (within.subset member)) rest)
    by_cases empty : condition.query = ""
    · rw [text_of_empty empty] at shape
      exact (beyond ⟨rest, shape.symm⟩).elim
    · rw [text_of_nonempty empty] at shape
      rcases List.append_eq_append_iff.mp shape with ⟨gap, named, query⟩ | ⟨_, within, _⟩
      · match gap with
        | [] => exact (beyond ⟨[], by simpa using named⟩).elim
        | [_] =>
            obtain ⟨rfl, rfl⟩ := List.cons.inj query
            rw [named, List.reverse_append] at found
            exact afterSeparator?_space_ne_none_iff.mp found
        | gap :: first :: others =>
            obtain ⟨_, query⟩ := List.cons.inj query
            have split : passed = (condition.monitor.toList ++ [gap]) ++ (first :: others) := by
              simp [named]
            rw [split, List.reverse_append,
              afterSeparator?_reverse_append (List.cons_ne_nil _ _)] at found
            exact (found (read.whole _ rest query (List.cons_ne_nil _ _))).elim
      · exact (beyond ⟨_, within.symm⟩).elim
  · intro opens
    have nonempty : condition.query ≠ "" := by
      rintro empty
      obtain ⟨_, _, _, _, _, shape⟩ := opens
      simp [empty] at shape
    refine ⟨condition.monitor.toList ++ [' '], condition.query.toList, ?_, ?_⟩
    · simp [text_of_nonempty nonempty]
    · rw [List.append_nil, List.reverse_append]
      exact afterSeparator?_space_ne_none_iff.mpr opens

end IsRead

end Condition

namespace Context

/-- The canonical text of conditions behind the `@` of the first. -/
def joined : List Condition → List Char
  | [] => []
  | [condition] => condition.text
  | condition :: next :: rest => condition.text ++ (separator ++ joined (next :: rest))

variable {condition : Condition} {conditions : List Condition}

theorem toList_render_cons (condition : Condition) (rest : List Condition) :
    (Context.mk (condition :: rest)).render.toList = '@' :: joined (condition :: rest) := by
  induction rest generalizing condition with
  | nil => simp [render, joined, Condition.toList_render]
  | cons next rest inductionHypothesis =>
      have later := inductionHypothesis next
      simp only [render, List.map_cons] at later ⊢
      rw [String.intercalate_cons_cons, String.toList_append, later]
      simp [joined, Condition.toList_render, separator]

theorem joined_ne_nil
    (nonempty : conditions ≠ [])
    (read : ∀ condition ∈ conditions, condition.IsRead) :
    joined conditions ≠ [] := by
  match conditions with
  | [] => exact (nonempty rfl).elim
  | [condition] => exact (read condition List.mem_cons_self).text_ne_nil
  | _ :: _ :: _ => simp [joined, separator]

/-- The canonical text of conditions has no blanks at its end. -/
theorem trimEnd_joined (read : ∀ condition ∈ conditions, condition.IsRead) :
    Text.trimEnd (joined conditions) = joined conditions := by
  fun_induction joined conditions with
  | case1 => rfl
  | case2 condition => exact (read condition List.mem_cons_self).trimEnd_text
  | case3 condition next rest inductionHypothesis =>
      have later : ∀ condition ∈ next :: rest, condition.IsRead :=
        fun condition member => read condition (List.mem_cons_of_mem _ member)
      rw [← List.append_assoc]
      exact Text.trimEnd_append _ (joined_ne_nil (List.cons_ne_nil _ _) later)
        (inductionHypothesis later)

/-- The canonical text is read behind its first `@`. -/
theorem body?_render
    (nonempty : conditions ≠ [])
    (read : ∀ condition ∈ conditions, condition.IsRead)
    (defaultMonitor : String) :
    body? (Context.mk conditions).render defaultMonitor = some (joined conditions) := by
  obtain ⟨condition, rest, rfl⟩ := List.exists_cons_of_ne_nil nonempty
  have firm : Text.trim ('@' :: joined (condition :: rest)) =
      '@' :: joined (condition :: rest) := by
    have start : Text.trimStart ('@' :: joined (condition :: rest)) =
        '@' :: joined (condition :: rest) :=
      List.dropWhile_cons_of_neg (by decide)
    rw [Text.trim, start]
    exact Text.trimEnd_append ['@'] (joined_ne_nil nonempty read) (trimEnd_joined read)
  simp [body?, toList_render_cons, firm]

/-- The terms of a canonical text are those of its conditions in turn. -/
theorem terms_joined
    (nonempty : conditions ≠ [])
    (read : ∀ condition ∈ conditions, condition.IsRead) :
    terms [] (joined conditions) = conditions.flatMap fun condition => terms [] condition.text := by
  fun_induction joined conditions with
  | case1 => exact (nonempty rfl).elim
  | case2 condition => simp
  | case3 condition next rest inductionHypothesis =>
      have firm := (read condition List.mem_cons_self).trimEnd_text
      rw [terms_append_separator isSeparator_separator (by simpa using firm), List.flatMap_cons,
        inductionHypothesis (List.cons_ne_nil _ _)
          fun condition member => read condition (List.mem_cons_of_mem _ member)]

theorem length_of_readTerms
    {terms : List (List Char)}
    (read : readTerms terms = .ok conditions) :
    conditions.length = terms.length := by
  induction terms generalizing conditions with
  | nil =>
      cases read
      rfl
  | cons term rest inductionHypothesis =>
      obtain ⟨first, others, _, readRest, rfl⟩ := readTerms_cons_eq_ok_iff.mp read
      simp [inductionHypothesis readRest]

theorem readTerms_text (read : ∀ condition ∈ conditions, condition.IsRead) :
    readTerms (conditions.map Condition.text) = .ok conditions := by
  induction conditions with
  | nil => rfl
  | cons condition rest inductionHypothesis =>
      exact readTerms_cons_eq_ok_iff.mpr
        ⟨condition, rest, (read condition List.mem_cons_self).readTerm_text,
          inductionHypothesis fun condition member =>
            read condition (List.mem_cons_of_mem _ member),
          rfl⟩

/-- Terms that are read in two parts are read as a whole. -/
theorem readTerms_append
    {first second : List (List Char)}
    {others : List Condition}
    (read : readTerms first = .ok conditions)
    (readOthers : readTerms second = .ok others) :
    readTerms (first ++ second) = .ok (conditions ++ others) := by
  induction first generalizing conditions with
  | nil =>
      cases read
      exact readOthers
  | cons term rest inductionHypothesis =>
      obtain ⟨condition, later, readFirst, readRest, rfl⟩ := readTerms_cons_eq_ok_iff.mp read
      exact readTerms_cons_eq_ok_iff.mpr
        ⟨condition, _, readFirst, inductionHypothesis readRest, rfl⟩

/-- Conditions whose terms are read one by one are read from all their terms. -/
theorem readTerms_flatMap
    (read : ∀ condition ∈ conditions, readTerms (terms [] condition.text) = .ok [condition]) :
    readTerms (conditions.flatMap fun condition => terms [] condition.text) = .ok conditions := by
  induction conditions with
  | nil => rfl
  | cons condition rest inductionHypothesis =>
      exact readTerms_append (read condition List.mem_cons_self)
        (inductionHypothesis fun condition member =>
          read condition (List.mem_cons_of_mem _ member))

/-- The canonical text of a single condition reads back if it is a single term. -/
theorem readTerms_terms_of_not_isCut
    {condition : Condition}
    (read : condition.IsRead)
    (whole : ¬ IsCut [] condition.text) :
    readTerms (terms [] condition.text) = .ok [condition] := by
  rw [terms_of_not_isCut whole]
  exact readTerms_text (List.forall_mem_singleton.mpr read)

/-- Reading a canonical text is reading the terms of its conditions. -/
theorem parse_render_eq_ok_iff
    (nonempty : conditions ≠ [])
    (read : ∀ condition ∈ conditions, condition.IsRead) :
    parse (Context.mk conditions).render = .ok ⟨conditions⟩ ↔
      readTerms (conditions.flatMap fun condition => terms [] condition.text) = .ok conditions := by
  simp only [parse, parseWith, body?_render nonempty read, terms_joined nonempty read]
  cases readTerms (conditions.flatMap fun condition => terms [] condition.text) <;> simp

/-- Cutting any of the conditions gives more terms than there are conditions. -/
theorem length_lt_length_terms
    {condition : Condition}
    (member : condition ∈ conditions)
    (cut : IsCut [] condition.text) :
    conditions.length < (conditions.flatMap fun condition => terms [] condition.text).length := by
  have sum :
      (conditions.map fun _ => 1).sum <
        (conditions.map fun condition => (terms [] condition.text).length).sum :=
    List.sum_lt_sum _ _
      (fun condition _ => List.length_pos_iff.mpr (terms_ne_nil [] condition.text))
      ⟨condition, member, one_lt_length_terms cut⟩
  rw [List.length_flatMap]
  simpa using sum

/--
The canonical text of a context that was read reads back as that context if and
only if none of its queries opens a separator.
-/
theorem parse_render_iff
    {source defaultMonitor : String}
    {context : Context}
    (read : parseWith source defaultMonitor = .ok context) :
    parse context.render = .ok context ↔
      ∀ condition ∈ context.conditions, ¬ OpensSeparator condition.query.toList := by
  obtain ⟨conditions⟩ := context
  have sound : ∀ condition ∈ conditions, condition.IsRead := isRead_of_parseWith read
  by_cases empty : conditions = []
  · subst empty
    exact iff_of_true (by decide +kernel) (by simp)
  rw [parse_render_eq_ok_iff empty sound]
  constructor
  · intro back condition member opens
    have more := length_lt_length_terms member ((sound condition member).isCut_text_iff.mpr opens)
    rw [← length_of_readTerms back] at more
    exact Nat.lt_irrefl _ more
  · intro closed
    have whole : (conditions.flatMap fun condition => terms [] condition.text) =
        conditions.map Condition.text := by
      rw [List.map_eq_flatMap]
      refine List.flatMap_congr fun condition member => ?_
      have uncut := mt (sound condition member).isCut_text_iff.mp (closed condition member)
      rw [terms_of_not_isCut uncut]
      rfl
    rw [whole, readTerms_text sound]

/-- Blanks around names, queries and separators do not count. -/
theorem parse_render_spaced :
    let context : Context := ⟨[⟨"media", "screen and (min-width:30em)"⟩, ⟨"visible", ""⟩]⟩
    parseWith "  screen and (min-width:30em)   and  @visible " "media" = .ok context ∧
      parse context.render = .ok context := by
  intro context
  have read :
      parseWith "  screen and (min-width:30em)   and  @visible " "media" = .ok context := by
    decide +kernel
  refine ⟨read, (parse_render_iff read).mpr ?_⟩
  simp [context, OpensSeparator]

/--
A query that begins like a separator, behind a blank that begins none: in the
canonical text it is cut off from its name.
-/
theorem parse_render_cut :
    let context : Context := ⟨[⟨"media", "and @x"⟩]⟩
    parseWith "@media\u00a0and @x" "media" = .ok context ∧
      parse context.render = .ok ⟨[⟨"media", ""⟩, ⟨"x", ""⟩]⟩ ∧
      parse context.render ≠ .ok context := by
  decide +kernel

/--
The canonical text of a list of conditions reads back as the list if and only if
the canonical text of each condition reads back by itself.
-/
theorem parse_render_iff_forall (conditions : List Condition) :
    parse (Context.mk conditions).render = .ok ⟨conditions⟩ ↔
      ∀ condition ∈ conditions, parse (Context.mk [condition]).render = .ok ⟨[condition]⟩ := by
  have alone {condition : Condition} (read : condition.IsRead) :
      parse (Context.mk [condition]).render = .ok ⟨[condition]⟩ ↔
        readTerms (terms [] condition.text) = .ok [condition] := by
    have single := parse_render_eq_ok_iff (List.cons_ne_nil condition [])
      (List.forall_mem_singleton.mpr read)
    simpa using single
  by_cases empty : conditions = []
  · subst empty
    exact iff_of_true (by decide +kernel) (by simp)
  constructor
  · intro back condition member
    have read := isRead_of_parseWith back
    refine (alone (read condition member)).mpr
      (readTerms_terms_of_not_isCut (read condition member) fun cut => ?_)
    -- A condition that is cut would make more terms than there are conditions.
    have more := length_lt_length_terms member cut
    rw [← length_of_readTerms ((parse_render_eq_ok_iff empty read).mp back)] at more
    exact Nat.lt_irrefl _ more
  · intro each
    have read : ∀ condition ∈ conditions, condition.IsRead := fun condition member =>
      isRead_of_parseWith (each condition member) condition List.mem_cons_self
    refine (parse_render_eq_ok_iff empty read).mpr (readTerms_flatMap fun condition member => ?_)
    exact (alone (read condition member)).mp (each condition member)

/-- Names and queries that look like parts of separators are not taken for any. -/
theorem parse_render_like_separators :
    let conditions : List Condition :=
      [⟨"and", "and"⟩, ⟨"x", "a and"⟩, ⟨"and", ""⟩, ⟨"y", "@z and@w"⟩]
    (∀ condition ∈ conditions,
        parse (Context.mk [condition]).render = .ok ⟨[condition]⟩) ∧
      parse (Context.mk conditions).render = .ok ⟨conditions⟩ := by
  intro conditions
  have each : ∀ condition ∈ conditions,
      parse (Context.mk [condition]).render = .ok ⟨[condition]⟩ := by
    decide +kernel
  exact ⟨each, (parse_render_iff_forall conditions).mpr each⟩

end Context

end Hydration
