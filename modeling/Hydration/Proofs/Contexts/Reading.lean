import Hydration.Proofs.Contexts.Terms
import Mathlib.Data.List.Forall2

/-!
# How terms are read

A term is read just if it begins with a name that ends at a blank or with the
term.  The terms of a context are read in order, and the first one that is not
read spoils the context.
-/

namespace Hydration

namespace Context

variable
  {name text term : List Char} {terms : List (List Char)} {condition : Condition}
  {conditions : List Condition} {fault : ContextFault}

/-- A name of a kind of monitor. -/
def IsName (name : List Char) : Prop :=
  ∃ first rest, name = first :: rest ∧ isNameStart first ∧ ∀ later ∈ rest, isNameRest later

theorem isNameRest_of_isNameStart {character : Char} (starts : isNameStart character) :
    isNameRest character := by
  simp only [isNameStart] at starts
  simp [isNameRest, starts]

/-- No character of a name is a blank. -/
theorem isBlank_of_isNameRest {character : Char} (named : isNameRest character) :
    Text.isBlank character = false := by
  have range : 97 ≤ character.toNat ∧ character.toNat ≤ 122 ∨
      48 ≤ character.toNat ∧ character.toNat ≤ 57 ∨ character = '-' ∨ character = '_' := by
    have lower : character.isLower =
        (decide (97 ≤ character.toNat) && decide (character.toNat ≤ 122)) := rfl
    have digit : character.isDigit =
        (decide (48 ≤ character.toNat) && decide (character.toNat ≤ 57)) := rfl
    simpa only [isNameRest, lower, digit, Bool.or_eq_true, Bool.and_eq_true, decide_eq_true_eq,
      beq_iff_eq, or_assoc] using named
  rcases range with lower | digit | rfl | rfl
  · exact Text.isBlank_of_printable (by omega) (by omega)
  · exact Text.isBlank_of_printable (by omega) (by omega)
  · decide
  · decide

theorem IsName.ne_nil (isName : IsName name) : name ≠ [] := by
  obtain ⟨first, rest, rfl, _⟩ := isName
  exact List.cons_ne_nil first rest

theorem IsName.isNameRest
    (isName : IsName name)
    {character : Char}
    (member : character ∈ name) :
    isNameRest character := by
  obtain ⟨first, rest, rfl, starts, named⟩ := isName
  rcases List.mem_cons.mp member with rfl | later
  · exact isNameRest_of_isNameStart starts
  · exact named character later

/-- The name is taken off a term up to the first character that is no part of names. -/
theorem splitName_append
    (isName : IsName name)
    (ends : ∀ next, text.head? = some next → isNameRest next = false) :
    splitName (name ++ text) = (name, text) := by
  obtain ⟨first, rest, rfl, starts, named⟩ := isName
  have taken : (rest ++ text).takeWhile isNameRest = rest := by
    rw [List.takeWhile_append_of_pos named]
    cases text with
    | nil => simp
    | cons next others => simp [ends next rfl]
  have dropped : (rest ++ text).dropWhile isNameRest = text := by
    rw [List.dropWhile_append_of_pos named]
    cases text with
    | nil => rfl
    | cons next others => simp [ends next rfl]
  simp [splitName, starts, taken, dropped]

/-- What is taken off a term as its name is one, unless it is empty. -/
theorem isName_of_splitName (nonempty : (splitName text).1 ≠ []) :
    IsName (splitName text).1 ∧ text = (splitName text).1 ++ (splitName text).2 := by
  cases text with
  | nil => exact (nonempty rfl).elim
  | cons first rest =>
      unfold splitName at nonempty ⊢
      dsimp only at nonempty ⊢
      split at nonempty
      · next starts =>
          rw [if_pos starts]
          refine ⟨⟨first, _, rfl, starts, fun later member => List.mem_takeWhile_imp member⟩, ?_⟩
          rw [List.cons_append, List.takeWhile_append_dropWhile]
      · exact (nonempty rfl).elim

/-- The name that is taken off a term goes as far as it can. -/
theorem isNameRest_of_splitName
    (nonempty : (splitName text).1 ≠ []) :
    ∀ next ∈ (splitName text).2.head?, isNameRest next = false := by
  intro next head
  cases text with
  | nil => exact (nonempty rfl).elim
  | cons first rest =>
      unfold splitName at nonempty head
      dsimp only at nonempty head
      split at nonempty
      · next starts =>
          have stops := List.head?_dropWhile_not isNameRest rest
          rw [if_pos starts, Option.mem_def] at head
          dsimp only at head
          rw [head] at stops
          exact stops
      · exact (nonempty rfl).elim

/-- A term says the name at its front and, behind blanks, the query. -/
inductive IsTerm (term : List Char) : Condition → Prop where
  | intro
      {name rest : List Char}
      (isName : IsName name)
      (ends : ∀ next ∈ rest.head?, Text.isBlank next)
      (spelled : Text.trim term = name ++ rest) :
      IsTerm term ⟨String.ofList name, String.ofList (Text.trim rest)⟩

/-- Why a term is refused: no name stands at its front, or one that goes on with other characters. -/
inductive IsRefused (term : List Char) : ContextFault → Prop where
  | nameless
      (unnamed : ∀ name rest, Text.trim term = name ++ rest → ¬ IsName name) :
      IsRefused term (.malformedTerm (String.ofList ('@' :: Text.trim term))
        "expected a monitor name after '@'")
  | crowded
      {name rest : List Char}
      {next : Char}
      (isName : IsName name)
      (spelled : Text.trim term = name ++ next :: rest)
      (longest : isNameRest next = false)
      (solid : Text.isBlank next = false) :
      IsRefused term (.malformedTerm (String.ofList ('@' :: Text.trim term))
        "monitor name must be followed by whitespace")

theorem splitName_eq_nil_iff :
    (splitName text).1 = [] ↔ ∀ name rest, text = name ++ rest → ¬ IsName name := by
  constructor
  · rintro nothing _ _ rfl ⟨first, others, rfl, starts, _⟩
    simp [splitName, starts] at nothing
  · intro unnamed
    by_contra nonempty
    obtain ⟨isName, spelled⟩ := isName_of_splitName nonempty
    exact unnamed _ _ spelled isName

theorem readTerm_of_isTerm (isTerm : IsTerm term condition) : readTerm term = .ok condition := by
  obtain ⟨isName, ends, spelled⟩ := isTerm
  next name rest =>
    have nonempty := isName.ne_nil
    have longest : ∀ next, rest.head? = some next → isNameRest next = false := by
      intro next head
      by_contra named
      have free := isBlank_of_isNameRest (by simpa using named)
      rw [ends next head] at free
      cases free
    have split := splitName_append isName longest
    cases rest with
    | nil =>
        have empty : Text.trim [] = [] := rfl
        rw [List.append_nil] at split spelled
        simp [readTerm, spelled, split, nonempty, empty]
    | cons next others => simp [readTerm, spelled, split, nonempty, ends next rfl]

theorem readTerm_of_isRefused (isRefused : IsRefused term fault) : readTerm term = .error fault := by
  cases isRefused with
  | nameless unnamed => simp [readTerm, splitName_eq_nil_iff.mpr unnamed]
  | @crowded name rest next isName spelled longest solid =>
      have nonempty := isName.ne_nil
      have split : splitName (name ++ next :: rest) = (name, next :: rest) :=
        splitName_append isName (by simp [longest])
      simp [readTerm, spelled, split, nonempty, solid]

/-- A term that says nothing is refused. -/
theorem isTerm_or_isRefused (term : List Char) :
    (∃ condition, IsTerm term condition) ∨ ∃ fault, IsRefused term fault := by
  by_cases nothing : (splitName (Text.trim term)).1 = []
  · exact .inr ⟨_, .nameless (splitName_eq_nil_iff.mp nothing)⟩
  obtain ⟨isName, spelled⟩ := isName_of_splitName nothing
  have longest := isNameRest_of_splitName nothing
  generalize (splitName (Text.trim term)).1 = name at isName spelled
  generalize (splitName (Text.trim term)).2 = rest at spelled longest
  cases rest with
  | nil => exact .inl ⟨_, .intro isName (by simp) spelled⟩
  | cons next others =>
      cases blank : Text.isBlank next with
      | true => exact .inl ⟨_, .intro isName (by simpa using blank) spelled⟩
      | false => exact .inr ⟨_, .crowded isName spelled (longest next rfl) blank⟩

/-- A term is read just if it says something, and what is read is what it says. -/
theorem readTerm_eq_ok_iff : readTerm term = .ok condition ↔ IsTerm term condition := by
  refine ⟨fun read => ?_, readTerm_of_isTerm⟩
  rcases isTerm_or_isRefused term with ⟨other, isTerm⟩ | ⟨fault, isRefused⟩
  · cases read.symm.trans (readTerm_of_isTerm isTerm)
    exact isTerm
  · cases read.symm.trans (readTerm_of_isRefused isRefused)

theorem readTerm_eq_error_iff : readTerm term = .error fault ↔ IsRefused term fault := by
  refine ⟨fun read => ?_, readTerm_of_isRefused⟩
  rcases isTerm_or_isRefused term with ⟨condition, isTerm⟩ | ⟨other, isRefused⟩
  · cases read.symm.trans (readTerm_of_isTerm isTerm)
  · cases read.symm.trans (readTerm_of_isRefused isRefused)
    exact isRefused

theorem IsRefused.not_isTerm
    (isRefused : IsRefused term fault)
    (condition : Condition) :
    ¬ IsTerm term condition := by
  intro isTerm
  cases (readTerm_of_isTerm isTerm).symm.trans (readTerm_of_isRefused isRefused)

/-- Terms are read if the first one and all others are. -/
theorem readTerms_cons_eq_ok_iff {term : List Char} {rest : List (List Char)} :
    readTerms (term :: rest) = .ok conditions ↔
      ∃ condition others, readTerm term = .ok condition ∧ readTerms rest = .ok others ∧
        conditions = condition :: others := by
  rw [readTerms]
  cases readTerm term with
  | error => simp
  | ok condition => cases readTerms rest <;> simp [eq_comm]

theorem readTerms_eq_ok_iff :
    readTerms terms = .ok conditions ↔ List.Forall₂ IsTerm terms conditions := by
  induction terms generalizing conditions with
  | nil => rw [List.forall₂_nil_left_iff, readTerms, Except.ok.injEq, eq_comm]
  | cons term rest inductionHypothesis =>
      rw [readTerms_cons_eq_ok_iff, List.forall₂_cons_left_iff]
      simp only [readTerm_eq_ok_iff, inductionHypothesis]

/-- Reading stops at the first term that is refused. -/
theorem readTerms_eq_error_iff :
    readTerms terms = .error fault ↔
      ∃ good bad rest, terms = good ++ bad :: rest ∧
        (∀ term ∈ good, ∃ condition, IsTerm term condition) ∧ IsRefused bad fault := by
  induction terms with
  | nil => simp [readTerms]
  | cons term rest inductionHypothesis =>
      rw [readTerms]
      constructor
      · intro read
        split at read
        · next refused =>
            cases read
            exact ⟨[], term, rest, rfl, by simp, readTerm_eq_error_iff.mp refused⟩
        · next condition readFirst =>
            split at read
            · next refused =>
                cases read
                obtain ⟨good, bad, later, rfl, each, isRefused⟩ := inductionHypothesis.mp refused
                exact ⟨term :: good, bad, later, rfl, List.forall_mem_cons.mpr
                  ⟨⟨condition, readTerm_eq_ok_iff.mp readFirst⟩, each⟩, isRefused⟩
            · cases read
      · rintro ⟨good, bad, later, spelled, each, isRefused⟩
        cases good with
        | nil =>
            obtain ⟨rfl, rfl⟩ := List.cons.inj spelled
            rw [readTerm_of_isRefused isRefused]
        | cons first good =>
            obtain ⟨rfl, rfl⟩ := List.cons.inj spelled
            obtain ⟨⟨condition, isTerm⟩, others⟩ := List.forall_mem_cons.mp each
            rw [readTerm_of_isTerm isTerm,
              inductionHypothesis.mpr ⟨good, bad, later, rfl, others, isRefused⟩]

end Context

end Hydration
