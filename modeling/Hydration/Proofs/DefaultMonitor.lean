import Hydration.Proofs.ContextGrammar
import Hydration.Settings.Document

/-!
# The default monitor of accepted settings

Settings are accepted if their default monitor is a single word.  A context that
names no kind of monitor is put to the default monitor by writing this word in
front of it, and is then read like any other.  So the word is found again as the
kind of monitor if it is a name, and otherwise the context is refused.
-/

namespace Hydration

namespace Settings

variable {settings checkedSettings : Settings}

/-- Whether some document gives the settings. -/
def IsAccepted (settings : Settings) : Prop :=
  ∃ document, ofToml document = .ok settings ∨ ofJson document = .ok settings

/-- Settings pass the check as they are, if no name is blank and the default monitor is one word. -/
theorem checked_eq_ok_iff :
    settings.checked = .ok checkedSettings ↔
      checkedSettings = settings ∧
        (∀ setting ∈ named, ¬ Text.IsBlankText (settings.get setting).toList) ∧
        ∀ character ∈ settings.defaultMonitor.toList, Text.isBlank character = false := by
  unfold checked
  split
  · next setting found =>
      have member := List.mem_of_find?_eq_some found
      have blank : Text.IsBlankText (settings.get setting).toList := by
        simpa [Text.trim_eq_nil_iff] using List.find?_some found
      simp only [reduceCtorEq, false_iff]
      exact fun accepted => accepted.2.1 setting member blank
  · next absent =>
      have filled : ∀ setting ∈ named, ¬ Text.IsBlankText (settings.get setting).toList := by
        simpa [Text.trim_eq_nil_iff] using absent
      split
      · next spaced =>
          obtain ⟨character, member, blank⟩ := List.any_eq_true.mp spaced
          simp only [reduceCtorEq, false_iff]
          rintro ⟨_, _, solid⟩
          cases blank.symm.trans (solid character member)
      · next solid =>
          have single : ∀ character ∈ settings.defaultMonitor.toList,
              Text.isBlank character = false := by
            simpa using solid
          rw [Except.ok.injEq, eq_comm]
          exact ⟨fun same => ⟨same, filled, single⟩, And.left⟩

/-- What a document gives has passed the check. -/
theorem IsAccepted.checked_eq (accepted : settings.IsAccepted) :
    settings.checked = .ok settings := by
  have passes {choices : List (Setting × String)}
      (passed : (ofChoices choices).checked = .ok settings) :
      settings.checked = .ok settings := by
    obtain ⟨rfl, _⟩ := checked_eq_ok_iff.mp passed
    exact passed
  obtain ⟨document, toml | json⟩ := accepted
  · unfold ofToml at toml
    split at toml
    · cases toml
    · exact passes toml
  · unfold ofJson at json
    split at json
    · cases json
    · exact passes json

/-- The default monitor of accepted settings is a word. -/
theorem IsAccepted.defaultMonitor (accepted : settings.IsAccepted) :
    settings.defaultMonitor.toList ≠ [] ∧
      ∀ character ∈ settings.defaultMonitor.toList, Text.isBlank character = false := by
  obtain ⟨_, filled, solid⟩ := checked_eq_ok_iff.mp accepted.checked_eq
  refine ⟨fun empty => ?_, solid⟩
  have blank : Text.IsBlankText (settings.get .defaultMonitor).toList := by
    simp [get, empty]
  exact filled .defaultMonitor (by decide) blank

end Settings

namespace Context

/--
A text that is put to the default monitor as a whole: it is not blank, no `@`
stands at its front, and it holds no separator, nor one at its front when a blank
is put before it.
-/
structure IsUnmarked (source : String) : Prop where
  nonblank : ¬ Text.IsBlankText source.toList
  unmarked : (Text.trim source.toList).head? ≠ some '@'
  whole : IsWhole (Text.trim source.toList)
  free :
    ∀ gap rest, gap ≠ [] → Text.IsBlankText gap →
      Text.trim source.toList ≠ 'a' :: 'n' :: 'd' :: (gap ++ '@' :: rest)

variable {source word : String} {name text : List Char}

/-- A text that is one term and begins with neither `@` nor the letter of a separator. -/
theorem isUnmarked_of_terms
    (first : Char)
    (rest : List Char)
    (trimmed : Text.trim source.toList = first :: rest)
    (single : terms [] (first :: rest) = [first :: rest])
    (unmarked : first ≠ '@')
    (free : first ≠ 'a') :
    IsUnmarked source := by
  refine ⟨fun blank => ?_, by simpa [trimmed] using unmarked, ?_, ?_⟩
  · rw [Text.trim_of_blank blank] at trimmed
    cases trimmed
  · rw [trimmed]
    exact (terms_eq_iff.mp single).2 _ List.mem_cons_self
  · intro gap others _ _ same
    rw [trimmed] at same
    exact free (List.cons.inj same).1

/-- A word in front of a text brings in no separator. -/
theorem isWhole_append
    (solid : ∀ character ∈ name, Text.isBlank character = false)
    (whole : IsWhole text)
    (free :
      ∀ gap rest, gap ≠ [] → Text.IsBlankText gap →
        text ≠ 'a' :: 'n' :: 'd' :: (gap ++ '@' :: rest)) :
    IsWhole (name ++ ' ' :: text) := by
  rintro _ ⟨_, ascii, nonempty, blankGap⟩ ⟨first, last, shape⟩
  next blanks gap blank _ =>
    have shape : (first ++ blanks) ++ blank :: 'a' :: 'n' :: 'd' :: (gap ++ '@' :: last) =
        name ++ ' ' :: text := by
      simpa using shape
    rcases List.append_eq_append_iff.mp shape with
      ⟨behind, spelled, onward⟩ | ⟨behind, _, onward⟩
    · cases behind with
      | nil => exact free gap last nonempty blankGap (List.cons.inj onward).2.symm
      | cons character behind =>
          -- The blank of the separator would stand in the word.
          obtain ⟨rfl, _⟩ := List.cons.inj onward
          have member : blank ∈ name := by simp [spelled]
          cases (solid blank member).symm.trans (Text.isBlank_of_isAsciiBlank ascii)
    · cases behind with
      | nil => exact free gap last nonempty blankGap (List.cons.inj onward).2
      | cons character behind =>
          obtain ⟨_, spelled⟩ := List.cons.inj onward
          exact whole _ (.intro Text.isBlankText_nil ascii nonempty blankGap)
            ⟨behind, last, by simp [spelled]⟩

/-- What stands before the first blank of a text is one word only. -/
theorem eq_of_words
    {other rest : List Char}
    (solid : ∀ character ∈ name, Text.isBlank character = false)
    (solidOther : ∀ character ∈ other, Text.isBlank character = false)
    (ends : ∀ next ∈ rest.head?, Text.isBlank next)
    (spelled : name ++ ' ' :: text = other ++ rest) :
    name = other := by
  rcases List.append_eq_append_iff.mp spelled with
    ⟨behind, longer, onward⟩ | ⟨behind, longer, onward⟩
  · cases behind with
    | nil => simpa using longer.symm
    | cons blank behind =>
        obtain ⟨rfl, _⟩ := List.cons.inj onward
        exact absurd (solidOther ' ' (by simp [longer])) (by decide)
  · cases behind with
    | nil => simpa using longer
    | cons next behind =>
        have member : next ∈ name := by simp [longer]
        cases (solid next member).symm.trans (ends next (by simp [onward]))

/-- What is read of an unmarked text is one term: the default monitor and the trimmed text. -/
theorem IsUnmarked.parseWith_eq
    (unmarked : IsUnmarked source)
    (solid : ∀ character ∈ word.toList, Text.isBlank character = false) :
    parseWith source word =
      (readTerm (word.toList ++ ' ' :: Text.trim source.toList)).map fun condition =>
        ⟨[condition]⟩ := by
  obtain ⟨first, rest, shape⟩ := List.exists_cons_of_ne_nil fun nothing =>
    unmarked.nonblank (Text.trim_eq_nil_iff.mp nothing)
  have isBody : IsBody source word (word.toList ++ ' ' :: Text.trim source.toList) := by
    have differs : first ≠ '@' := by
      rintro rfl
      exact unmarked.unmarked (by rw [shape]; rfl)
    rw [shape]
    exact .unmarked shape differs
  have whole := isWhole_append solid unmarked.whole unmarked.free
  rw [isBody.parseWith_eq, terms_of_not_isCut (not_isCut_iff.mpr whole), List.reverse_nil,
    List.nil_append, readTerms, readTerms]
  cases readTerm (word.toList ++ ' ' :: Text.trim source.toList) <;> rfl

/-- Nothing is trimmed from a trimmed text with a word in front of it. -/
theorem IsUnmarked.trim_eq
    (unmarked : IsUnmarked source)
    (nonempty : name ≠ [])
    (solid : ∀ character ∈ name, Text.isBlank character = false) :
    Text.trim (name ++ ' ' :: Text.trim source.toList) =
      name ++ ' ' :: Text.trim source.toList := by
  obtain ⟨first, rest, rfl⟩ := List.exists_cons_of_ne_nil nonempty
  have start : Text.trimStart (first :: rest ++ ' ' :: Text.trim source.toList) =
      first :: rest ++ ' ' :: Text.trim source.toList := by
    refine Text.trimStart_append Text.isBlankText_nil ?_
    simp [solid first List.mem_cons_self]
  have filled : Text.trim source.toList ≠ [] := mt Text.trim_eq_nil_iff.mp unmarked.nonblank
  have finish := Text.trimEnd_append (first :: rest ++ [' ']) filled
    (Text.trimEnd_trim source.toList)
  rw [Text.trim, start]
  simpa using finish

/-- An unmarked text with a word in front says that the word is asked, if the word is a name. -/
theorem IsUnmarked.isTerm_iff
    (unmarked : IsUnmarked source)
    (nonempty : word.toList ≠ [])
    (solid : ∀ character ∈ word.toList, Text.isBlank character = false)
    (condition : Condition) :
    IsTerm (word.toList ++ ' ' :: Text.trim source.toList) condition ↔
      IsName word.toList ∧ condition = ⟨word, Text.trimmed source⟩ := by
  have blank : Text.IsBlankText [' '] := List.forall_mem_singleton.mpr (by decide)
  have query : Text.trim (' ' :: Text.trim source.toList) = Text.trim source.toList :=
    (Text.trim_append_left blank).trans (Text.trim_trim source.toList)
  constructor
  · intro isTerm
    cases isTerm with
    | @intro name rest isName ends spelled =>
        rw [unmarked.trim_eq nonempty solid] at spelled
        have solidName : ∀ character ∈ name, Text.isBlank character = false :=
          fun _ member => isBlank_of_isNameRest (isName.isNameRest member)
        obtain rfl := eq_of_words solid solidName ends spelled
        obtain rfl := List.append_cancel_left spelled
        refine ⟨isName, ?_⟩
        rw [query, String.ofList_toList, Text.trimmed]
  · rintro ⟨isName, rfl⟩
    have said : IsTerm (word.toList ++ ' ' :: Text.trim source.toList)
        ⟨String.ofList word.toList,
          String.ofList (Text.trim (' ' :: Text.trim source.toList))⟩ :=
      .intro isName (by simp; decide) (unmarked.trim_eq nonempty solid)
    rwa [query, String.ofList_toList] at said

end Context

namespace Settings

open Context

/--
Under accepted settings a text that names no kind of monitor is read as the single
condition that asks the default monitor with the trimmed text, if and only if the
default monitor is a name.  Otherwise it is refused as a whole.
-/
theorem default_monitor_read_iff
    {settings : Settings}
    {source : String}
    (accepted : settings.IsAccepted)
    (unmarked : IsUnmarked source) :
    (parseWith source settings.defaultMonitor =
        .ok ⟨[⟨settings.defaultMonitor, Text.trimmed source⟩]⟩ ↔
      IsName settings.defaultMonitor.toList) ∧
    (¬ IsName settings.defaultMonitor.toList →
      ∃ reason,
        parseWith source settings.defaultMonitor =
          .error (.malformedTerm
            ("@" ++ settings.defaultMonitor ++ " " ++ Text.trimmed source) reason)) := by
  obtain ⟨nonempty, solid⟩ := accepted.defaultMonitor
  generalize settings.defaultMonitor = word at nonempty solid ⊢
  have asks := unmarked.isTerm_iff nonempty solid
  rw [unmarked.parseWith_eq solid]
  constructor
  · constructor
    · intro read
      cases found : readTerm (word.toList ++ ' ' :: Text.trim source.toList) with
      | error fault => simp [found, Except.map] at read
      | ok condition => exact ((asks condition).mp (readTerm_eq_ok_iff.mp found)).1
    · intro isName
      rw [readTerm_of_isTerm ((asks _).mpr ⟨isName, rfl⟩)]
      rfl
  · intro unnamed
    have text : String.ofList ('@' :: (word.toList ++ ' ' :: Text.trim source.toList)) =
        "@" ++ word ++ " " ++ Text.trimmed source := by
      apply String.toList_injective
      simp [Text.trimmed]
    rcases isTerm_or_isRefused (word.toList ++ ' ' :: Text.trim source.toList) with
      ⟨condition, isTerm⟩ | ⟨fault, isRefused⟩
    · exact (unnamed ((asks condition).mp isTerm).1).elim
    · rw [readTerm_of_isRefused isRefused, ← text]
      cases isRefused <;> exact ⟨_, by rw [unmarked.trim_eq nonempty solid]; rfl⟩

/-- What looks like parts of a separator stays in the query. -/
theorem default_monitor_read_like_separators :
    let settings : Settings := { standard with defaultMonitor := "scroll-pos" }
    let source := "\tpast and@home and\u00a0now "
    settings.IsAccepted ∧ IsUnmarked source ∧ IsName settings.defaultMonitor.toList ∧
      parseWith source settings.defaultMonitor =
        .ok ⟨[⟨"scroll-pos", "past and@home and\u00a0now"⟩]⟩ := by
  intro settings source
  have accepted : settings.IsAccepted :=
    ⟨"default_monitor = 'scroll-pos'", .inl (by decide +kernel)⟩
  have isName : IsName settings.defaultMonitor.toList :=
    ⟨'s', "croll-pos".toList, by decide, by decide, List.all_eq_true.mp (by decide)⟩
  have unmarked : IsUnmarked source :=
    isUnmarked_of_terms 'p' "ast and@home and\u00a0now".toList
      (by decide +kernel) (by decide +kernel) (by decide) (by decide)
  have trimmed : Text.trimmed source = "past and@home and\u00a0now" := by decide +kernel
  have read := (default_monitor_read_iff accepted unmarked).1.mpr isName
  rw [trimmed] at read
  exact ⟨accepted, unmarked, isName, read⟩

/-- A default monitor that is one word but no name is accepted, and refused when it is asked. -/
theorem default_monitor_refused :
    let settings : Settings := { standard with defaultMonitor := "Media" }
    settings.IsAccepted ∧ IsUnmarked "on" ∧
      parseWith "on" settings.defaultMonitor =
        .error (.malformedTerm "@Media on" "expected a monitor name after '@'") ∧
      parseWith "on" settings.defaultMonitor ≠
        .ok ⟨[⟨settings.defaultMonitor, Text.trimmed "on"⟩]⟩ := by
  intro settings
  have accepted : settings.IsAccepted :=
    ⟨"default_monitor = 'Media'", .inl (by decide +kernel)⟩
  have unmarked : IsUnmarked "on" :=
    isUnmarked_of_terms 'o' ['n']
      (by decide +kernel) (by decide +kernel) (by decide) (by decide)
  exact ⟨accepted, unmarked, by decide +kernel, by decide +kernel⟩

end Settings

end Hydration
