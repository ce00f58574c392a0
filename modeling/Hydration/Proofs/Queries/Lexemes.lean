import Hydration.Media.Parser
import Hydration.Proofs.Queries.Grammar
import Mathlib.Data.List.TakeWhile

/-!
# Words and groups

A lower-cased text is cut into tokens if and only if it spells words and groups,
and the tokens are these, the groups without the blanks at their ends.
-/

namespace Hydration

/-- What a reading becomes is read if and only if the reading is. -/
theorem map_eq_ok_iff
    {ε α β : Type}
    {read : Except ε α}
    {change : α → β}
    {changed : β} :
    read.map change = .ok changed ↔ ∃ value, read = .ok value ∧ change value = changed := by
  cases read <;> simp [Except.map]

namespace Media

/-- What is read of a lexeme. -/
def Lexeme.token : Lexeme → Token
  | word text => .word text
  | group body => .group (Text.trim body)

variable {piece : String} {text blanks word body after rest : List Char} {character : Char}

theorem isWordCharacter_eq (lower : character.isUpper = false) :
    isWordCharacter character = isWordLetter character := by
  have parts : character.isAlphanum =
      (character.isUpper || character.isLower || character.isDigit) := rfl
  rw [isWordCharacter, isWordLetter, parts, lower, Bool.false_or]

theorem isBlank_of_isWordLetter (letter : isWordLetter character) :
    Text.isBlank character = false := by
  have range : 97 ≤ character.toNat ∧ character.toNat ≤ 122 ∨
      48 ≤ character.toNat ∧ character.toNat ≤ 57 ∨ character = '-' := by
    have lower : character.isLower =
        (decide (97 ≤ character.toNat) && decide (character.toNat ≤ 122)) := rfl
    have digit : character.isDigit =
        (decide (48 ≤ character.toNat) && decide (character.toNat ≤ 57)) := rfl
    simpa only [isWordLetter, lower, digit, Bool.or_eq_true, Bool.and_eq_true, decide_eq_true_eq,
      beq_iff_eq, or_assoc] using letter
  rcases range with ⟨above, below⟩ | ⟨above, below⟩ | rfl
  · exact Text.isBlank_of_printable (by omega) (by omega)
  · exact Text.isBlank_of_printable (by omega) (by omega)
  · decide

/-- A group ends at the first closing parenthesis. -/
theorem splitGroup?_eq_some_iff :
    splitGroup? text = some (body, after) ↔ ')' ∉ body ∧ text = body ++ ')' :: after := by
  induction text generalizing body with
  | nil => simp [splitGroup?]
  | cons character rest inductionHypothesis =>
      simp only [splitGroup?]
      split
      · next closing =>
          subst closing
          constructor
          · rintro ⟨⟩
            exact ⟨List.not_mem_nil, rfl⟩
          · rintro ⟨clear, shape⟩
            cases body with
            | nil => simpa using shape
            | cons first others =>
                obtain ⟨rfl, _⟩ := List.cons.inj shape
                exact absurd List.mem_cons_self clear
      · next differs =>
          constructor
          · intro found
            obtain ⟨⟨inner, later⟩, split, same⟩ := Option.map_eq_some_iff.mp found
            cases same
            obtain ⟨closes, shape⟩ := inductionHypothesis.mp split
            exact ⟨by simp [closes, Ne.symm differs], by rw [shape]; rfl⟩
          · rintro ⟨closes, shape⟩
            cases body with
            | nil => exact absurd (List.cons.inj shape).1 differs
            | cons first others =>
                obtain ⟨rfl, same⟩ := List.cons.inj shape
                rw [List.mem_cons, not_or] at closes
                exact Option.map_eq_some_iff.mpr
                  ⟨(others, after), inductionHypothesis.mpr ⟨closes.2, same⟩, rfl⟩

theorem tokens_of_nothing (blank : Text.IsBlankText text) : tokens piece text = .ok [] := by
  rw [tokens]
  split
  · rfl
  · next shape => cases shape.symm.trans (Text.trimStart_eq_nil_iff.mpr blank)

theorem tokens_of_group
    (blank : Text.IsBlankText blanks)
    (closes : ')' ∉ body) :
    tokens piece (blanks ++ '(' :: (body ++ ')' :: rest)) =
      (tokens piece rest).map (.group (Text.trim body) :: ·) := by
  have start : Text.trimStart (blanks ++ '(' :: (body ++ ')' :: rest)) =
      '(' :: (body ++ ')' :: rest) :=
    Text.trimStart_append blank (by simp; decide)
  have cut : splitGroup? (body ++ ')' :: rest) = some (body, rest) :=
    splitGroup?_eq_some_iff.mpr ⟨closes, rfl⟩
  rw [tokens]
  split
  · next shape => cases start.symm.trans shape
  · next shape =>
      cases start.symm.trans shape
      rw [if_pos rfl]
      split
      · next open' => cases cut.symm.trans open'
      · next found => cases cut.symm.trans found; rfl

theorem tokens_of_word
    (blank : Text.IsBlankText blanks)
    (nonempty : word ≠ [])
    (letters : ∀ letter ∈ word, isWordCharacter letter)
    (plain : ∀ letter ∈ word, Text.isBlank letter = false)
    (longest : ∀ next ∈ rest.head?, isWordCharacter next = false) :
    tokens piece (blanks ++ word ++ rest) =
      (tokens piece rest).map (.word word :: ·) := by
  obtain ⟨first, others, rfl⟩ := List.exists_cons_of_ne_nil nonempty
  obtain ⟨firstLetter, otherLetters⟩ := List.forall_mem_cons.mp letters
  have start : Text.trimStart (blanks ++ (first :: others) ++ rest) =
      first :: (others ++ rest) := by
    rw [List.append_assoc]
    exact Text.trimStart_append blank (by simp [plain first])
  have stops : rest.takeWhile isWordCharacter = [] ∧ rest.dropWhile isWordCharacter = rest := by
    cases rest with
    | nil => exact ⟨rfl, rfl⟩
    | cons next later =>
        have no : ¬isWordCharacter next = true := by simp [longest next rfl]
        exact ⟨List.takeWhile_cons_of_neg no, List.dropWhile_cons_of_neg no⟩
  have differs : first ≠ '(' := by
    rintro rfl
    exact absurd firstLetter (by decide)
  rw [tokens]
  split
  · next shape => cases start.symm.trans shape
  · next shape =>
      cases start.symm.trans shape
      rw [if_neg differs, if_pos firstLetter, List.takeWhile_append_of_pos otherLetters,
        List.dropWhile_append_of_pos otherLetters, stops.1, stops.2, List.append_nil]

/-- A lower-cased text is cut into the words and groups that it spells. -/
theorem tokens_eq_ok_iff
    {found : List Token}
    (lower : ∀ character ∈ text, character.isUpper = false) :
    tokens piece text = .ok found ↔
      ∃ lexemes, Spells lexemes text ∧ found = lexemes.map Lexeme.token := by
  constructor
  · intro read
    fun_induction tokens piece text generalizing found with
    | case1 text blank =>
        cases read
        exact ⟨[], .nothing (Text.trimStart_eq_nil_iff.mp blank), rfl⟩
    | case2 => cases read
    | case3 text rest body after cut start inductionHypothesis =>
        obtain ⟨blanks, blank, shape⟩ := Text.exists_blanks_trimStart text
        obtain ⟨closes, rfl⟩ := splitGroup?_eq_some_iff.mp cut
        rw [start] at shape
        subst shape
        obtain ⟨later, readLater, rfl⟩ := map_eq_ok_iff.mp read
        obtain ⟨lexemes, spelled, rfl⟩ :=
          inductionHypothesis (fun character member => lower character (by simp [member])) readLater
        exact ⟨.group body :: lexemes, .group blank closes spelled, rfl⟩
    | case4 text first rest start _ firstLetter inductionHypothesis =>
        obtain ⟨blanks, blank, shape⟩ := Text.exists_blanks_trimStart text
        obtain ⟨later, readLater, rfl⟩ := map_eq_ok_iff.mp read
        have longest := List.head?_dropWhile_not isWordCharacter rest
        have others : ∀ letter ∈ rest.takeWhile isWordCharacter, isWordCharacter letter :=
          fun _ member => List.mem_takeWhile_imp member
        rw [start, ← List.takeWhile_append_dropWhile (p := isWordCharacter) (l := rest)] at shape
        generalize rest.takeWhile isWordCharacter = word at *
        generalize rest.dropWhile isWordCharacter = after at *
        subst shape
        obtain ⟨lexemes, spelled, rfl⟩ :=
          inductionHypothesis (fun character member => lower character (by simp [member])) readLater
        refine ⟨.word (first :: word) :: lexemes, ?_, rfl⟩
        have shape : blanks ++ first :: (word ++ after) = blanks ++ (first :: word) ++ after := by
          simp
        rw [shape]
        refine .word blank (List.cons_ne_nil first word) ?_ ?_ spelled
        · intro letter member
          rw [← isWordCharacter_eq (lower letter (by grind))]
          rcases List.mem_cons.mp member with rfl | inside
          · exact firstLetter
          · exact others letter inside
        · intro next head
          rw [← isWordCharacter_eq (lower next (by simp [List.mem_of_mem_head? head]))]
          rw [Option.mem_def] at head
          simpa [head] using longest
    | case5 => cases read
  · rintro ⟨lexemes, spelled, rfl⟩
    induction spelled with
    | nothing blank => exact tokens_of_nothing blank
    | word blank nonempty letters longest _ inductionHypothesis =>
        rw [tokens_of_word blank nonempty ?_ (fun _ member => isBlank_of_isWordLetter (letters _ member)) ?_,
          inductionHypothesis fun character member => lower character (by simp [member])]
        · rfl
        · intro letter member
          rw [isWordCharacter_eq (lower letter (by simp [member]))]
          exact letters letter member
        · intro next head
          rw [isWordCharacter_eq (lower next (by simp [List.mem_of_mem_head? head]))]
          exact longest next head
    | group blank closes _ inductionHypothesis =>
        rw [tokens_of_group blank closes, inductionHypothesis fun character member =>
          lower character (by simp [member])]
        rfl

/-- Blanks may come in front of what is spelled. -/
theorem Spells.append_left
    {lexemes : List Lexeme}
    (spelled : Spells lexemes text)
    (blank : Text.IsBlankText blanks) :
    Spells lexemes (blanks ++ text) := by
  cases spelled with
  | nothing others => exact .nothing (blank.append others)
  | word others nonempty letters longest later =>
      rw [List.append_assoc, ← List.append_assoc, ← List.append_assoc]
      exact .word (blank.append others) nonempty letters longest later
  | group others closes later =>
      rw [← List.append_assoc]
      exact .group (blank.append others) closes later

/-- Two texts spell their words and groups in turn, unless the second goes on with a word. -/
theorem Spells.append
    {lexemes others : List Lexeme}
    {more : List Char}
    (spelled : Spells lexemes text)
    (also : Spells others more)
    (apart : ∀ next ∈ more.head?, isWordLetter next = false) :
    Spells (lexemes ++ others) (text ++ more) := by
  induction spelled with
  | nothing blank => exact also.append_left blank
  | @word _ _ _ rest blank nonempty letters longest _ inductionHypothesis =>
      rw [List.append_assoc]
      refine .word blank nonempty letters ?_ inductionHypothesis
      cases rest with
      | nil => exact apart
      | cons => exact longest
  | group blank closes _ inductionHypothesis =>
      have whole := Spells.group blank closes inductionHypothesis
      simpa using whole

/-- Blanks may come behind what is spelled. -/
theorem Spells.append_right
    {lexemes : List Lexeme}
    (spelled : Spells lexemes text)
    (blank : Text.IsBlankText blanks) :
    Spells lexemes (text ++ blanks) := by
  have apart : ∀ next ∈ blanks.head?, isWordLetter next = false := by
    intro next head
    by_contra letter
    have free := isBlank_of_isWordLetter (by simpa using letter)
    rw [blank next (List.mem_of_mem_head? head)] at free
    cases free
  simpa using spelled.append (.nothing blank) apart

/-- What is spelled behind blanks is spelled without them. -/
theorem Spells.of_append_left
    {lexemes : List Lexeme}
    (spelled : Spells lexemes (blanks ++ text))
    (blank : Text.IsBlankText blanks) :
    Spells lexemes text := by
  generalize whole : blanks ++ text = written at spelled
  cases spelled with
  | nothing others =>
      exact .nothing fun character member => others character (by simp [← whole, member])
  | @word _ gap word rest others nonempty letters longest later =>
      obtain ⟨first, tail, rfl⟩ := List.exists_cons_of_ne_nil nonempty
      have free := isBlank_of_isWordLetter (letters first List.mem_cons_self)
      rw [List.append_assoc] at whole
      obtain ⟨between, rfl, rfl⟩ := Text.exists_of_blanks_append blank ⟨first, rfl, free⟩ whole
      rw [← List.append_assoc]
      exact .word (fun _ member => others _ (List.mem_append_right _ member)) nonempty letters
        longest later
  | @group _ gap body rest others closes later =>
      obtain ⟨between, rfl, rfl⟩ := Text.exists_of_blanks_append blank ⟨'(', rfl, by decide⟩ whole
      exact .group (fun _ member => others _ (List.mem_append_right _ member)) closes later

/-- What is spelled in front of blanks is spelled without them. -/
theorem Spells.of_append_right
    {lexemes : List Lexeme}
    (spelled : Spells lexemes (text ++ blanks))
    (blank : Text.IsBlankText blanks) :
    Spells lexemes text := by
  generalize whole : text ++ blanks = written at spelled
  induction spelled generalizing text with
  | nothing others =>
      exact .nothing fun character member => others character (by simp [← whole, member])
  | @word _ gap word rest others nonempty letters longest _ inductionHypothesis =>
      have finish : ∃ last ∈ (gap ++ word).getLast?, Text.isBlank last = false := by
        refine ⟨word.getLast nonempty, ?_, isBlank_of_isWordLetter (letters _ (List.getLast_mem _))⟩
        rw [List.getLast?_append_of_ne_nil _ nonempty, List.getLast?_eq_some_getLast nonempty]
        rfl
      obtain ⟨between, rfl, rfl⟩ := Text.exists_of_append_blanks blank finish whole
      refine .word others nonempty letters (fun next head => longest next ?_) (inductionHypothesis rfl)
      exact List.mem_head?_append_of_mem_head? head
  | @group _ gap body rest others closes _ inductionHypothesis =>
      have finish : ∃ last ∈ (gap ++ '(' :: body ++ [')']).getLast?, Text.isBlank last = false :=
        ⟨')', List.getLast?_concat, by decide⟩
      obtain ⟨between, rfl, rfl⟩ := Text.exists_of_append_blanks blank finish (by simpa using whole)
      have inner := Spells.group others closes (inductionHypothesis rfl)
      simpa using inner

/-- A text that does not begin with a blank begins with its first word or group. -/
theorem Spells.start_cases
    {lexemes : List Lexeme}
    (spelled : Spells lexemes text)
    (start : ∃ first ∈ text.head?, Text.isBlank first = false) :
    (∃ word rest later, lexemes = .word word :: later ∧ text = word ++ rest ∧
      (∀ letter ∈ word, isWordLetter letter) ∧
      (∀ next ∈ rest.head?, isWordLetter next = false) ∧ word ≠ [] ∧ Spells later rest) ∨
    ∃ body rest later, lexemes = .group body :: later ∧ text = '(' :: (body ++ ')' :: rest) ∧
      ')' ∉ body ∧ Spells later rest := by
  obtain ⟨first, head, free⟩ := start
  have begins {blanks more : List Char} (blank : Text.IsBlankText blanks)
      (head : first ∈ (blanks ++ more).head?) : blanks = [] := by
    cases blanks with
    | nil => rfl
    | cons character others =>
        obtain rfl : character = first := by simpa using head
        exact absurd List.mem_cons_self (blank.not_mem free)
  cases spelled with
  | nothing blank => exact absurd (List.mem_of_mem_head? head) (blank.not_mem free)
  | @word later _ word rest blank nonempty letters longest spelledLater =>
      rw [List.append_assoc] at head
      obtain rfl := begins blank head
      exact .inl ⟨word, rest, later, rfl, rfl, letters, longest, nonempty, spelledLater⟩
  | @group later _ body rest blank closes spelledLater =>
      obtain rfl := begins blank head
      exact .inr ⟨body, rest, later, rfl, rfl, closes, spelledLater⟩

/-- A word ends where its letters end. -/
theorem takeWhile_word_append
    (letters : ∀ letter ∈ word, isWordLetter letter)
    (longest : ∀ next ∈ rest.head?, isWordLetter next = false) :
    (word ++ rest).takeWhile isWordLetter = word := by
  rw [List.takeWhile_append_of_pos letters]
  cases rest with
  | nil => simp
  | cons next later => rw [List.takeWhile_cons_of_neg (by simp [longest next rfl]), List.append_nil]

/-- A text that begins with a word spells it first, and then what the rest spells. -/
theorem spells_word_append_iff
    {lexemes : List Lexeme}
    (nonempty : word ≠ [])
    (letters : ∀ letter ∈ word, isWordLetter letter)
    (longest : ∀ next ∈ rest.head?, isWordLetter next = false) :
    Spells lexemes (word ++ rest) ↔
      ∃ later, lexemes = .word word :: later ∧ Spells later rest := by
  constructor
  · intro spelled
    obtain ⟨first, others, rfl⟩ := List.exists_cons_of_ne_nil nonempty
    have letter := letters first List.mem_cons_self
    rcases spelled.start_cases ⟨first, rfl, isBlank_of_isWordLetter letter⟩ with
      ⟨other, after, later, rfl, shape, otherLetters, otherLongest, _, spelledLater⟩ |
      ⟨_, _, _, _, shape, _⟩
    · have same := takeWhile_word_append letters longest
      rw [shape, takeWhile_word_append otherLetters otherLongest] at same
      subst same
      obtain rfl := List.append_cancel_left shape
      exact ⟨later, rfl, spelledLater⟩
    · obtain ⟨rfl, _⟩ := List.cons.inj shape
      exact absurd letter (by decide)
  · rintro ⟨later, rfl, spelled⟩
    exact .word Text.isBlankText_nil nonempty letters longest spelled

/-- A text that begins with a group spells it first, and then what the rest spells. -/
theorem spells_group_append_iff
    {lexemes : List Lexeme}
    (closes : ')' ∉ body) :
    Spells lexemes ('(' :: (body ++ ')' :: rest)) ↔
      ∃ later, lexemes = .group body :: later ∧ Spells later rest := by
  constructor
  · intro spelled
    rcases spelled.start_cases ⟨'(', rfl, by decide⟩ with
      ⟨word, _, _, _, shape, letters, _, nonempty, _⟩ |
      ⟨other, after, later, rfl, shape, otherCloses, spelledLater⟩
    · obtain ⟨first, others, rfl⟩ := List.exists_cons_of_ne_nil nonempty
      obtain ⟨rfl, _⟩ := List.cons.inj shape
      exact absurd (letters _ List.mem_cons_self) (by decide)
    · have split : splitGroup? (body ++ ')' :: rest) = some (body, rest) :=
        splitGroup?_eq_some_iff.mpr ⟨closes, rfl⟩
      rw [(List.cons.inj shape).2, splitGroup?_eq_some_iff.mpr ⟨otherCloses, rfl⟩] at split
      cases split
      exact ⟨later, rfl, spelledLater⟩
  · rintro ⟨later, rfl, spelled⟩
    exact .group Text.isBlankText_nil closes spelled

end Media

end Hydration
