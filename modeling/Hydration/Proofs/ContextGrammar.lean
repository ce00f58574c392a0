import Hydration.Proofs.Contexts.Reading

/-!
# Contexts are read by their separators

Whatever the text, its terms with separators between them spell it again, no
blank stands between a term and the separator behind it, and no separator stands
inside a term.  There is only one way to cut a text like this.

A context is then read term by term: each term must begin with a name, and the
first one that does not is the one that is reported.
-/

namespace Hydration

namespace Context

variable {before text term : List Char} {pieces : List (List Char)}

/--
Terms with separators between them spell a text.  A separator takes all the
blanks behind the term before it.
-/
inductive AreJoined : List (List Char) → List Char → Prop where
  | single
      (term : List Char) :
      AreJoined [term] term
  | more
      {term separator rest : List Char}
      {terms : List (List Char)}
      (firm : ∀ last ∈ term.getLast?, Text.isBlank last = false)
      (isSeparator : IsSeparator separator)
      (later : AreJoined terms rest) :
      AreJoined (term :: terms) (term ++ separator ++ rest)

/-- A text that holds no separator. -/
def IsWhole (text : List Char) : Prop :=
  ∀ separator, IsSeparator separator → ¬ separator <:+: text

/-- A text is cut just if it holds a separator. -/
theorem not_isCut_iff : ¬ IsCut [] text ↔ IsWhole text := by
  constructor
  · rintro whole separator isSeparator ⟨first, last, rfl⟩
    obtain ⟨blanks, end', others, _, spelled, found⟩ := isSeparator.exists_blanks last
    refine whole ⟨first ++ (blanks ++ [end']), 'a' :: others, ?_, ?_⟩
    · rw [List.append_assoc, spelled, List.append_assoc first]
    · simp [found]
  · rintro whole ⟨passed, rest, rfl, cut⟩
    obtain ⟨after, found⟩ := Option.ne_none_iff_exists'.mp cut
    obtain ⟨⟨last, earlier, shape, ascii⟩, gap, blanks, gapBlank, allBlank, rfl⟩ :=
      afterSeparator?_eq_some_iff.mp found
    rw [List.append_nil, List.reverse_eq_iff] at shape
    refine whole _ (.intro Text.isBlankText_nil ascii (List.cons_ne_nil gap blanks)
      (List.forall_mem_cons.mpr ⟨gapBlank, allBlank⟩)) ⟨earlier.reverse, after, ?_⟩
    simp [shape]

/-- Cutting a text leaves terms that spell it, with separators between them. -/
theorem areJoined_terms (before text : List Char) :
    AreJoined (terms before text) (before.reverse ++ text) := by
  fun_induction terms before text with
  | case1 before =>
      rw [List.append_nil]
      exact .single _
  | case2 before character rest after found inductionHypothesis =>
      obtain ⟨⟨last, earlier, rfl, ascii⟩, gap, blanks, gapBlank, allBlank, shape⟩ :=
        afterSeparator?_eq_some_iff.mp found
      obtain ⟨others, blankOthers, passed⟩ := Text.exists_blanks_trimEnd earlier.reverse
      have trimmed : Text.trimEnd (last :: earlier).reverse = Text.trimEnd earlier.reverse := by
        rw [List.reverse_cons]
        exact Text.trimEnd_append_blanks _
          (List.forall_mem_singleton.mpr (Text.isBlank_of_isAsciiBlank ascii))
      have isSeparator :
          IsSeparator (others ++ last :: 'a' :: 'n' :: 'd' :: (gap :: blanks ++ ['@'])) :=
        .intro blankOthers ascii (List.cons_ne_nil gap blanks)
          (List.forall_mem_cons.mpr ⟨gapBlank, allBlank⟩)
      have firm : Text.trimEnd (Text.trimEnd earlier.reverse) = Text.trimEnd earlier.reverse :=
        List.rdropWhile_idempotent _ _
      have spelled : (last :: earlier).reverse ++ character :: rest =
          Text.trimEnd earlier.reverse ++
            (others ++ last :: 'a' :: 'n' :: 'd' :: (gap :: blanks ++ ['@'])) ++ after := by
        rw [shape, List.reverse_cons]
        conv_lhs => rw [passed]
        simp
      rw [trimmed, spelled]
      exact .more (Text.trimEnd_eq_self_iff.mp firm) isSeparator inductionHypothesis
  | case3 before character rest absent inductionHypothesis =>
      simpa using inductionHypothesis

/-- Terms that hold no separator are found again when separators are put between them. -/
theorem terms_of_areJoined
    (joined : AreJoined pieces text)
    (whole : ∀ piece ∈ pieces, IsWhole piece) :
    terms [] text = pieces := by
  induction joined with
  | single term => exact terms_of_not_isCut (not_isCut_iff.mpr (whole term List.mem_cons_self))
  | @more term separator rest _ firm isSeparator _ inductionHypothesis =>
      obtain ⟨first, others⟩ := List.forall_mem_cons.mp whole
      have trimmed : Text.trimEnd ([].reverse ++ term) = [].reverse ++ term :=
        Text.trimEnd_eq_self_iff.mpr firm
      have cut : terms [] (term ++ (separator ++ rest)) = terms [] term ++ terms [] rest :=
        terms_append_separator isSeparator trimmed rest
      rw [List.append_assoc, cut, terms_of_not_isCut (not_isCut_iff.mpr first),
        inductionHypothesis others]
      rfl

/-- A text is cut in one way: at each separator, and nowhere else. -/
theorem terms_eq_iff :
    terms [] text = pieces ↔ AreJoined pieces text ∧ ∀ piece ∈ pieces, IsWhole piece := by
  constructor
  · rintro rfl
    exact ⟨areJoined_terms [] text, fun _ member => not_isCut_iff.mp (not_isCut_of_mem_terms member)⟩
  · rintro ⟨joined, whole⟩
    exact terms_of_areJoined joined whole

/--
The text of the terms: what stands behind the `@` of the first one.  A text
without this `@` is put to the default monitor.
-/
inductive IsBody (source defaultMonitor : String) : List Char → Prop where
  | marked
      {body : List Char}
      (shape : Text.trim source.toList = '@' :: body) :
      IsBody source defaultMonitor body
  | unmarked
      {first : Char}
      {rest : List Char}
      (shape : Text.trim source.toList = first :: rest)
      (differs : first ≠ '@') :
      IsBody source defaultMonitor (defaultMonitor.toList ++ ' ' :: first :: rest)

variable {source defaultMonitor : String} {body : List Char}

theorem body?_eq_none_iff :
    body? source defaultMonitor = none ↔ Text.IsBlankText source.toList := by
  rw [← Text.trim_eq_nil_iff]
  unfold body?
  split <;> simp_all

theorem body?_eq_some_iff :
    body? source defaultMonitor = some body ↔ IsBody source defaultMonitor body := by
  constructor
  · intro found
    unfold body? at found
    split at found
    · cases found
    · next shape =>
        cases found
        exact .marked shape
    · next some' differs =>
        cases found
        obtain ⟨first, rest, shape⟩ := List.exists_cons_of_ne_nil some'
        rw [shape]
        exact .unmarked shape fun same => differs rest (same ▸ shape)
  · intro isBody
    cases isBody with
    | marked shape =>
        rw [body?, shape]
        rfl
    | unmarked shape differs =>
        rw [body?, shape]
        split <;> simp_all

theorem parseWith_of_blank
    (blank : Text.IsBlankText source.toList)
    (defaultMonitor : String) :
    parseWith source defaultMonitor = .ok always := by
  rw [parseWith, body?_eq_none_iff.mpr blank]

theorem IsBody.parseWith_eq (isBody : IsBody source defaultMonitor body) :
    parseWith source defaultMonitor = (readTerms (terms [] body)).map Context.mk := by
  rw [parseWith, body?_eq_some_iff.mpr isBody]
  dsimp only
  cases readTerms (terms [] body) <;> rfl

theorem exists_isBody
    (nonblank : ¬ Text.IsBlankText source.toList)
    (defaultMonitor : String) :
    ∃ body, IsBody source defaultMonitor body := by
  obtain ⟨body, found⟩ := Option.ne_none_iff_exists'.mp (mt body?_eq_none_iff.mp nonblank)
  exact ⟨body, body?_eq_some_iff.mp found⟩

/-- A context has one condition for each of its terms. -/
theorem parseWith_eq_ok_iff {context : Context} :
    parseWith source defaultMonitor = .ok context ↔
      Text.IsBlankText source.toList ∧ context.conditions = [] ∨
        ∃ body, IsBody source defaultMonitor body ∧
          List.Forall₂ IsTerm (terms [] body) context.conditions := by
  constructor
  · intro read
    by_cases blank : Text.IsBlankText source.toList
    · cases (parseWith_of_blank blank defaultMonitor).symm.trans read
      exact .inl ⟨blank, rfl⟩
    · obtain ⟨body, isBody⟩ := exists_isBody blank defaultMonitor
      rw [isBody.parseWith_eq] at read
      cases found : readTerms (terms [] body) with
      | error fault => simp [found, Except.map] at read
      | ok conditions =>
          rw [found] at read
          cases read
          exact .inr ⟨body, isBody, readTerms_eq_ok_iff.mp found⟩
  · rintro (⟨blank, nothing⟩ | ⟨body, isBody, said⟩)
    · rw [parseWith_of_blank blank, always, ← nothing]
    · rw [isBody.parseWith_eq, readTerms_eq_ok_iff.mpr said]
      rfl

/-- The first term that is refused is the one that is reported. -/
theorem parseWith_eq_error_iff {fault : ContextFault} :
    parseWith source defaultMonitor = .error fault ↔
      ∃ body good bad rest, IsBody source defaultMonitor body ∧
        terms [] body = good ++ bad :: rest ∧
        (∀ term ∈ good, ∃ condition, IsTerm term condition) ∧
        (∀ condition, ¬ IsTerm bad condition) ∧ IsRefused bad fault := by
  constructor
  · intro read
    by_cases blank : Text.IsBlankText source.toList
    · cases (parseWith_of_blank blank defaultMonitor).symm.trans read
    · obtain ⟨body, isBody⟩ := exists_isBody blank defaultMonitor
      rw [isBody.parseWith_eq] at read
      cases found : readTerms (terms [] body) with
      | ok conditions => simp [found, Except.map] at read
      | error reported =>
          rw [found] at read
          cases read
          obtain ⟨good, bad, rest, spelled, each, isRefused⟩ := readTerms_eq_error_iff.mp found
          exact ⟨body, good, bad, rest, isBody, spelled, each, isRefused.not_isTerm, isRefused⟩
  · rintro ⟨body, good, bad, rest, isBody, spelled, each, _, isRefused⟩
    rw [isBody.parseWith_eq,
      readTerms_eq_error_iff.mpr ⟨good, bad, rest, spelled, each, isRefused⟩]
    rfl

/--
How a context is read.  Any text is cut into the only terms that spell it with
separators between them and hold none.  A blank text is the context without
conditions.  Any other gives one condition for each term, in order; if one of the
terms does not begin with a name of its own, the first such term is reported.
-/
theorem reads_terms_between_separators :
    (∀ body pieces, terms [] body = pieces ↔
      AreJoined pieces body ∧ ∀ piece ∈ pieces, IsWhole piece) ∧
    ∀ source defaultMonitor,
      (∀ context, parseWith source defaultMonitor = .ok context ↔
        Text.IsBlankText source.toList ∧ context.conditions = [] ∨
          ∃ body, IsBody source defaultMonitor body ∧
            List.Forall₂ IsTerm (terms [] body) context.conditions) ∧
      ∀ fault, parseWith source defaultMonitor = .error fault ↔
        ∃ body good bad rest, IsBody source defaultMonitor body ∧
          terms [] body = good ++ bad :: rest ∧
          (∀ term ∈ good, ∃ condition, IsTerm term condition) ∧
          (∀ condition, ¬ IsTerm bad condition) ∧ IsRefused bad fault :=
  ⟨fun _ _ => terms_eq_iff,
    fun _ _ => ⟨fun _ => parseWith_eq_ok_iff, fun _ => parseWith_eq_error_iff⟩⟩

end Context

end Hydration
