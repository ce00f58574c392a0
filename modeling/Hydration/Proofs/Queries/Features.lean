import Hydration.Proofs.Queries.Lexemes

/-!
# Numbers, lengths and features

The inside of a group is read as a feature if and only if it is one by the
grammar.  It is cut at its first colon; what stands on either side counts without
the blanks around it.
-/

namespace Hydration

namespace Media

variable {text number rest body name value before after : List Char} {character : Char}

/-- Numbers are read as the grammar says. -/
theorem number?_eq_some_iff {value : Float} : number? text = some value ↔ IsNumber text value := by
  constructor
  · intro found
    have whole : ∀ digit ∈ text.takeWhile Char.isDigit, digit.isDigit :=
      fun _ member => List.mem_takeWhile_imp member
    have shape := (List.takeWhile_append_dropWhile (p := Char.isDigit) (l := text)).symm
    unfold number? at found
    generalize text.takeWhile Char.isDigit = digits at *
    generalize text.dropWhile Char.isDigit = behind at *
    subst shape
    cases behind with
    | nil =>
        simp only [Option.ite_none_left_eq_some, Option.some.injEq] at found
        obtain ⟨nonempty, rfl⟩ := found
        simpa [decimal, numeral] using IsNumber.whole nonempty whole
    | cons point places =>
        simp only [Option.ite_none_right_eq_some, Option.some.injEq] at found
        obtain ⟨⟨rfl, placesDigits, nonempty⟩, rfl⟩ := found
        refine .pointed nonempty fun digit member => ?_
        rcases List.mem_append.mp member with early | late
        · exact whole digit early
        · exact List.all_eq_true.mp placesDigits digit late
  · rintro (⟨nonempty, allDigits⟩ | ⟨nonempty, allDigits⟩)
    · rw [number?, List.dropWhile_eq_nil_iff.mpr allDigits, List.takeWhile_eq_self_iff.mpr allDigits]
      simp [nonempty, decimal, numeral]
    · next whole places =>
        have digits : ∀ digit ∈ whole, digit.isDigit :=
          fun digit member => allDigits digit (List.mem_append_left _ member)
        have placesDigits : places.all Char.isDigit :=
          List.all_eq_true.mpr fun digit member => allDigits digit (List.mem_append_right _ member)
        rw [number?, List.dropWhile_append_of_pos digits, List.takeWhile_append_of_pos digits,
          List.dropWhile_cons_of_neg (by decide), List.takeWhile_cons_of_neg (by decide)]
        simp only [List.append_nil, true_and, placesDigits]
        rw [if_pos nonempty]
        rfl

/-- No character of a number is a blank. -/
theorem isBlank_of_isNumberCharacter (part : isNumberCharacter character) :
    Text.isBlank character = false := by
  have range : 48 ≤ character.toNat ∧ character.toNat ≤ 57 ∨ character = '.' := by
    have digit : character.isDigit =
        (decide (48 ≤ character.toNat) && decide (character.toNat ≤ 57)) := rfl
    simpa only [isNumberCharacter, digit, Bool.or_eq_true, Bool.and_eq_true, decide_eq_true_eq,
      beq_iff_eq] using part
  rcases range with ⟨above, below⟩ | rfl
  · exact Text.isBlank_of_printable (by omega) (by omega)
  · decide

theorem IsNumber.ne_nil {value : Float} (isNumber : IsNumber text value) : text ≠ [] := by
  cases isNumber with
  | whole nonempty => exact nonempty
  | pointed => simp

theorem IsNumber.isNumberCharacter
    {value : Float}
    (isNumber : IsNumber text value)
    (member : character ∈ text) :
    isNumberCharacter character := by
  cases isNumber with
  | whole _ allDigits => simp [Media.isNumberCharacter, allDigits character member]
  | pointed _ allDigits =>
      rw [List.mem_append, List.mem_cons, or_left_comm] at member
      rcases member with rfl | part
      · decide
      · simp [Media.isNumberCharacter, allDigits character (List.mem_append.mpr part)]

/-- A number ends where its characters end. -/
theorem IsNumber.cut
    {value : Float}
    (isNumber : IsNumber number value)
    (stops : ∀ next ∈ rest.head?, Media.isNumberCharacter next = false) :
    (number ++ rest).takeWhile Media.isNumberCharacter = number ∧
      (number ++ rest).dropWhile Media.isNumberCharacter = rest := by
  have allParts : ∀ character ∈ number, Media.isNumberCharacter character :=
    fun _ member => isNumber.isNumberCharacter member
  rw [List.takeWhile_append_of_pos allParts, List.dropWhile_append_of_pos allParts]
  cases rest with
  | nil => simp
  | cons next later =>
      have no : ¬Media.isNumberCharacter next = true := by simp [stops next rfl]
      rw [List.takeWhile_cons_of_neg no, List.dropWhile_cons_of_neg no, List.append_nil]
      exact ⟨rfl, rfl⟩

/-- A length begins and ends with no blank. -/
theorem IsLength.trim_eq {length : Length} (isLength : IsLength text length) :
    Text.trim text = text := by
  have start {number rest : List Char} {value : Float} (isNumber : IsNumber number value) :
      ∀ first ∈ (number ++ rest).head?, Text.isBlank first = false := by
    intro first head
    obtain ⟨character, others, rfl⟩ := List.exists_cons_of_ne_nil isNumber.ne_nil
    cases head
    exact isBlank_of_isNumberCharacter (isNumber.isNumberCharacter List.mem_cons_self)
  cases isLength with
  | px isNumber | em isNumber | rem isNumber =>
      rw [List.append_assoc]
      exact Text.trim_of_ends (start isNumber) (by simp; decide)
  | zero isNumber =>
      have front := List.append_nil text ▸ start isNumber
      refine Text.trim_of_ends front fun last end' => ?_
      exact isBlank_of_isNumberCharacter
        (isNumber.isNumberCharacter (List.mem_of_getLast? end'))

/-- Behind blanks no number goes on. -/
theorem isNumberCharacter_head_append
    {blanks : List Char}
    (blank : Text.IsBlankText blanks)
    (stops : ∀ next ∈ rest.head?, isNumberCharacter next = false) :
    ∀ next ∈ (blanks ++ rest).head?, isNumberCharacter next = false := by
  cases blanks with
  | nil => exact stops
  | cons first others =>
      intro next head
      obtain rfl : first = next := by simpa using head
      by_contra part
      have free := isBlank_of_isNumberCharacter (by simpa using part)
      rw [blank first List.mem_cons_self] at free
      cases free

/-- What follows the number of a length is its unit. -/
theorem readLength_append
    {value : Float}
    (isNumber : IsNumber number value)
    (stops : ∀ next ∈ rest.head?, isNumberCharacter next = false) :
    readLength (number ++ rest) =
      match String.ofList (Text.trim rest) with
      | "px" => .ok (.px value)
      | "em" => .ok (.em value)
      | "rem" => .ok (.rem value)
      | "" =>
          if value == 0.0 then .ok (.px 0.0)
          else .error (.invalidLength (String.ofList (number ++ rest)))
      | _ => .error (.invalidLength (String.ofList (number ++ rest))) := by
  obtain ⟨digits, behind⟩ := isNumber.cut stops
  have read := readLength.eq_def (number ++ rest)
  rw [digits, behind, number?_eq_some_iff.mpr isNumber] at read
  exact read

/-- Lengths are read as the grammar says, also with blanks behind them. -/
theorem readLength_eq_ok_iff {length : Length} :
    readLength text = .ok length ↔
      ∃ body blanks, Text.IsBlankText blanks ∧ IsLength body length ∧ text = body ++ blanks := by
  constructor
  · intro read
    have shape := (List.takeWhile_append_dropWhile (p := isNumberCharacter) (l := text)).symm
    unfold readLength at read
    generalize text.takeWhile isNumberCharacter = digits at *
    generalize text.dropWhile isNumberCharacter = behind at *
    obtain ⟨first, last, blankFirst, blankLast, around⟩ := Text.exists_blanks_trim behind
    split at read
    · cases read
    · next value found =>
        have isNumber := number?_eq_some_iff.mp found
        -- The unit without the blanks around it decides what is read.
        have unit {word : List Char} (same : String.ofList (Text.trim behind) = String.ofList word) :
            text = digits ++ first ++ word ++ last := by
          rw [shape, around, String.ofList_injective same]
          simp only [List.append_assoc]
        split at read
        · next same =>
            cases read
            exact ⟨_, last, blankLast, .px isNumber blankFirst, unit same⟩
        · next same =>
            cases read
            exact ⟨_, last, blankLast, .em isNumber blankFirst, unit same⟩
        · next same =>
            cases read
            exact ⟨_, last, blankLast, .rem isNumber blankFirst, unit same⟩
        · next same =>
            split at read
            · next isZero =>
                cases read
                refine ⟨digits, first ++ last, blankFirst.append blankLast, .zero isNumber isZero, ?_⟩
                simpa only [List.append_nil, List.append_assoc] using unit same
            · cases read
        · cases read
  · rintro ⟨body, blanks, blank, isLength, rfl⟩
    cases isLength with
    | px isNumber blankGap | em isNumber blankGap | rem isNumber blankGap =>
        rw [List.append_assoc, List.append_assoc,
          readLength_append isNumber (isNumberCharacter_head_append blankGap (by simp; decide)),
          ← List.append_assoc, Text.trim_append blankGap blank]
        rfl
    | zero isNumber isZero =>
        have stops : ∀ next ∈ (blanks ++ []).head?, isNumberCharacter next = false :=
          isNumberCharacter_head_append blank (by simp)
        rw [List.append_nil] at stops
        rw [readLength_append isNumber stops, Text.trim_of_blank blank]
        simp [isZero]

/-- Blanks behind the value of a pair are not part of it. -/
theorem IsPair.of_append
    {blanks : List Char}
    (isPair : IsPair name (value ++ blanks) body)
    (blank : Text.IsBlankText blanks) :
    IsPair name value body := by
  cases isPair with
  | @intro before after first last blankBefore blankAfter blankFirst blankLast =>
      have pair : IsPair name value
          (before ++ name ++ after ++ ':' :: (first ++ value ++ (blanks ++ last))) :=
        .intro blankBefore blankAfter blankFirst (blank.append blankLast)
      simpa only [List.append_assoc] using pair

/-- What stands on either side of the first colon, without the blanks around it. -/
def cut? (body : List Char) : Option (List Char × List Char) :=
  match body.dropWhile (· ≠ ':') with
  | [] => none
  | _ :: after => some (Text.trim (body.takeWhile (· ≠ ':')), Text.trim after)

theorem cut?_of_colon (clear : ':' ∉ before) :
    cut? (before ++ ':' :: after) = some (Text.trim before, Text.trim after) := by
  have others : ∀ character ∈ before, decide (character ≠ ':') = true := by
    intro character member
    rw [decide_eq_true_iff]
    rintro rfl
    exact clear member
  rw [cut?, List.dropWhile_append_of_pos others, List.takeWhile_append_of_pos others,
    List.dropWhile_cons_of_neg (by simp), List.takeWhile_cons_of_neg (by simp), List.append_nil]

theorem cut?_eq_none_iff : cut? body = none ↔ ':' ∉ body := by
  constructor
  · intro uncut member
    obtain ⟨before, after, rfl, clear⟩ := List.eq_append_cons_of_mem member
    rw [cut?_of_colon clear] at uncut
    cases uncut
  · intro clear
    have others : body.dropWhile (· ≠ ':') = [] := by
      refine List.dropWhile_eq_nil_iff.mpr fun character member => ?_
      rw [decide_eq_true_iff]
      rintro rfl
      exact clear member
    rw [cut?, others]

/-- Blanks around the whole do not change what stands beside the colon. -/
theorem cut?_trim (body : List Char) : cut? (Text.trim body) = cut? body := by
  obtain ⟨first, last, blankFirst, blankLast, shape⟩ := Text.exists_blanks_trim body
  have clearFirst : ':' ∉ first := blankFirst.not_mem (by decide)
  have clearLast : ':' ∉ last := blankLast.not_mem (by decide)
  generalize Text.trim body = inner at *
  subst shape
  by_cases member : ':' ∈ inner
  · obtain ⟨before, after, rfl, clear⟩ := List.eq_append_cons_of_mem member
    have shape : first ++ (before ++ ':' :: after) ++ last =
        (first ++ before) ++ ':' :: (after ++ last) := by
      simp
    rw [shape, cut?_of_colon clear, cut?_of_colon (by simp [clearFirst, clear]),
      Text.trim_append_left blankFirst, Text.trim_append_right blankLast]
  · rw [cut?_eq_none_iff.mpr member, eq_comm, cut?_eq_none_iff]
    simp [clearFirst, clearLast, member]

/-- A pair is cut into its name and its value. -/
theorem IsPair.cut?_eq
    (isPair : IsPair name value body)
    (clear : ':' ∉ name)
    (trimmedName : Text.trim name = name)
    (trimmedValue : Text.trim value = value) :
    cut? body = some (name, value) := by
  cases isPair with
  | @intro before gap first last blankBefore blankGap blankFirst blankLast =>
      have clearName : ':' ∉ before ++ name ++ gap := by
        have clearBefore : ':' ∉ before := blankBefore.not_mem (by decide)
        have clearGap : ':' ∉ gap := blankGap.not_mem (by decide)
        simp [clearBefore, clearGap, clear]
      rw [cut?_of_colon clearName, Text.trim_append blankBefore blankGap,
        Text.trim_append blankFirst blankLast, trimmedName, trimmedValue]

/-- What can be cut is a pair. -/
theorem isPair_of_cut? (found : cut? body = some (name, value)) : IsPair name value body := by
  have member : ':' ∈ body := by
    by_contra clear
    rw [cut?_eq_none_iff.mpr clear] at found
    cases found
  obtain ⟨before, after, rfl, clear⟩ := List.eq_append_cons_of_mem member
  rw [cut?_of_colon clear, Option.some.injEq, Prod.mk.injEq] at found
  obtain ⟨rfl, rfl⟩ := found
  obtain ⟨first, gap, blankFirst, blankGap, shape⟩ := Text.exists_blanks_trim before
  obtain ⟨start, last, blankStart, blankLast, shapeAfter⟩ := Text.exists_blanks_trim after
  generalize Text.trim before = name at *
  generalize Text.trim after = value at *
  subst shape shapeAfter
  exact .intro blankFirst blankGap blankStart blankLast

/-- The name of a side behind a comparison is split into the two. -/
theorem splitBound_marker (bound : Bound) (side : Side) :
    splitBound (bound.marker ++ side.word) = (bound, side.word) := by
  cases bound <;> cases side <;> rfl

theorem marker_splitBound (name : List Char) :
    (splitBound name).1.marker ++ (splitBound name).2 = name := by
  unfold splitBound
  split <;> rfl

/-- What can be cut is read by its name and its value. -/
theorem readFeature_of_cut? (found : cut? body = some (name, value)) :
    readFeature body =
      match String.ofList (splitBound name).2, (splitBound name).1 with
      | "width", bound => (readLength value).map (.extent .width bound)
      | "height", bound => (readLength value).map (.extent .height bound)
      | "orientation", .exactly =>
          match String.ofList value with
          | "portrait" => .ok (.orientation .portrait)
          | "landscape" => .ok (.orientation .landscape)
          | other => .error (.unknownOrientation other)
      | _, _ => .error (.unknownFeature (String.ofList name)) := by
  cases shape : body.dropWhile (· ≠ ':') with
  | nil =>
      simp only [cut?, shape] at found
      cases found
  | cons colon after =>
      simp only [cut?, shape, Option.some.injEq, Prod.mk.injEq] at found
      obtain ⟨rfl, rfl⟩ := found
      have read := readFeature.eq_def body
      rw [shape] at read
      exact read

theorem readFeature_of_uncut (uncut : cut? body = none) :
    readFeature body = .error (.valueless (String.ofList body)) := by
  cases shape : body.dropWhile (· ≠ ':') with
  | nil => simp only [readFeature, shape]
  | cons colon after =>
      simp only [cut?, shape] at uncut
      cases uncut

/-- The inside of a group is read as the grammar says. -/
theorem readFeature_trim_eq_ok_iff {feature : Feature} :
    readFeature (Text.trim body) = .ok feature ↔ IsFeature body feature := by
  constructor
  · intro read
    cases found : cut? (Text.trim body) with
    | none =>
        rw [readFeature_of_uncut found] at read
        cases read
    | some parts =>
        obtain ⟨name, value⟩ := parts
        have isPair := isPair_of_cut? (cut?_trim body ▸ found)
        have spelled := marker_splitBound name
        rw [readFeature_of_cut? found] at read
        have extent {bound : Bound} (side : Side)
            (named : name = bound.marker ++ side.word)
            (read : (readLength value).map (Feature.extent side bound) = .ok feature) :
            IsFeature body feature := by
          obtain ⟨length, readValue, rfl⟩ := map_eq_ok_iff.mp read
          obtain ⟨inner, blanks, blank, isLength, rfl⟩ := readLength_eq_ok_iff.mp readValue
          exact .extent side bound isLength (named ▸ isPair.of_append blank)
        split at read
        · next word =>
            rw [String.ofList_injective word] at spelled
            exact extent .width spelled.symm read
        · next word =>
            rw [String.ofList_injective word] at spelled
            exact extent .height spelled.symm read
        · next word exactly =>
            rw [String.ofList_injective word, exactly] at spelled
            subst spelled
            split at read
            · next upright =>
                cases read
                exact .orientation .portrait (String.ofList_injective upright ▸ isPair :)
            · next wide =>
                cases read
                exact .orientation .landscape (String.ofList_injective wide ▸ isPair :)
            · cases read
        · cases read
  · intro isFeature
    cases isFeature with
    | extent side bound isLength isPair =>
        have found := isPair.cut?_eq (by cases bound <;> cases side <;> decide)
          (by cases bound <;> cases side <;> rfl) isLength.trim_eq
        rw [← cut?_trim] at found
        have read := readLength_eq_ok_iff.mpr ⟨_, [], by simp, isLength, (List.append_nil _).symm⟩
        rw [readFeature_of_cut? found, splitBound_marker, read]
        cases side <;> rfl
    | orientation orientation isPair =>
        have found := isPair.cut?_eq (by decide) rfl (by cases orientation <;> rfl)
        rw [← cut?_trim] at found
        rw [readFeature_of_cut? found]
        cases orientation <;> rfl

end Media

end Hydration
