import Directory.Filter.Parser
import Directory.Filter.Printer
import Directory.Proofs.Text.Characters
import Directory.Proofs.Text.Pieces

namespace Directory.Filter

open Text

/-! # Filters read from their own texts

A filter is found again in its own text: the name of a condition ends at the first equals sign,
its value at the first closing parenthesis, and a list of filters at the first character that is
no opening parenthesis.  Whatever stands behind the text of a filter is left over. -/

/-- The attribute descriptions that a text can show. -/
structure IsName (attr : Text) : Prop where
  nonempty : attr ≠ []
  characters : ∀ c ∈ attr, 'A' ≤ c ∧ c ≤ 'Z' ∨ 'a' ≤ c ∧ c ≤ 'z' ∨ '0' ≤ c ∧ c ≤ '9' ∨
    c = '-' ∨ c = '.' ∨ c = ';'

/-- Every condition names its attribute by a description that a text can show. -/
inductive WellNamed : Filter → Prop where
  | present {attr : Text} (named : IsName attr) : WellNamed (present attr)
  | equal {attr value : Text} (named : IsName attr) : WellNamed (equal attr value)
  | and {filters : List Filter} (members : ∀ filter ∈ filters, WellNamed filter) :
      WellNamed (and filters)
  | or {filters : List Filter} (members : ∀ filter ∈ filters, WellNamed filter) :
      WellNamed (or filters)
  | not {filter : Filter} (negated : WellNamed filter) : WellNamed (not filter)

variable {attr value raw input rest : Text} {filter : Filter} {filters : List Filter}

theorem isAttributeName_iff : isAttributeName attr = true ↔ IsName attr := by
  have ranged (c : Char) : (c.isAlphanum || c == '-' || c == '.' || c == ';') = true ↔
      'A' ≤ c ∧ c ≤ 'Z' ∨ 'a' ≤ c ∧ c ≤ 'z' ∨ '0' ≤ c ∧ c ≤ '9' ∨ c = '-' ∨ c = '.' ∨ c = ';' := by
    simp only [Bool.or_eq_true, isAlphanum_iff, beq_iff_eq, or_assoc]
    exact Iff.rfl
  simp only [isAttributeName, Bool.and_eq_true, Bool.not_eq_true', List.isEmpty_eq_false_iff,
    List.all_eq_true, ranged]
  exact ⟨fun ⟨nonempty, characters⟩ => ⟨nonempty, characters⟩,
    fun named => ⟨named.nonempty, named.characters⟩⟩

theorem IsName.described (named : IsName attr) :
    ∀ c ∈ attr, c.isAlphanum = true ∨ c = '-' ∨ c = '.' ∨ c = ';' := by
  have valid := isAttributeName_iff.mpr named
  simp only [isAttributeName, Bool.and_eq_true, List.all_eq_true] at valid
  intro c member
  simpa [or_assoc] using valid.2 c member

/-- The characters of a value that stand for themselves. -/
def isPlain (c : Char) : Bool :=
  !(c == '*' || c == '(' || c == ')' || c == '\\' || c.toNat == 0)

theorem escapeChar_of_isPlain {c : Char} (plain : isPlain c = true) : escapeChar c = [c] := by
  simp only [isPlain, Bool.not_eq_true', Bool.or_eq_false_iff, beq_eq_false_iff_ne] at plain
  obtain ⟨⟨⟨⟨star, opening⟩, closing⟩, backslash⟩, nul⟩ := plain
  simp only [escapeChar, if_neg star, if_neg opening, if_neg closing, if_neg backslash, if_neg nul]

/-- The characters with a meaning are few, and each stands as its one octet. -/
theorem escapeChar_of_not_isPlain {c : Char} (special : isPlain c = false) :
    ∃ high low octet, escapeChar c = ['\\', high, low] ∧ high.isAlphanum = true ∧
      low.isAlphanum = true ∧ hexPair? high low = some octet ∧
      String.utf8EncodeChar c = [octet] := by
  simp only [isPlain, Bool.not_eq_false', Bool.or_eq_true, beq_iff_eq] at special
  rcases special with (((rfl | rfl) | rfl) | rfl) | nul
  · exact ⟨'2', 'a', 42, by decide +kernel⟩
  · exact ⟨'2', '8', 40, by decide +kernel⟩
  · exact ⟨'2', '9', 41, by decide +kernel⟩
  · exact ⟨'5', 'c', 92, by decide +kernel⟩
  · obtain rfl : c = Char.ofNat 0 := Char.toNat_inj.mp nul
    exact ⟨'0', '0', 0, by decide +kernel⟩

theorem valuePieces?_plain {c : Char} (other : c ≠ '\\') (rest : Text) :
    valuePieces? (c :: rest) = (valuePieces? rest).map (.plain c :: ·) := by
  rw [valuePieces?.eq_3, if_neg other]
  rintro high low later rfl
  exact absurd rfl other

theorem valuePieces?_escaped (value : Text) :
    valuePieces? (value.flatMap escapeChar) = some (percentPieces isPlain value) := by
  induction value with
  | nil => rfl
  | cons c rest ih =>
    simp only [percentPieces] at ih ⊢
    rw [List.flatMap_cons, List.flatMap_cons]
    cases plain : isPlain c with
    | true =>
      have other : c ≠ '\\' := by
        rintro rfl
        exact absurd plain (by decide)
      rw [escapeChar_of_isPlain plain, List.singleton_append, valuePieces?_plain other, ih]
      rfl
    | false =>
      obtain ⟨high, low, octet, written, _, _, read, encoded⟩ := escapeChar_of_not_isPlain plain
      simp only [written, List.cons_append, List.nil_append, valuePieces?, read, ih, encoded]
      rfl

theorem unescape?_escaped (value : Text) : unescape? (value.flatMap escapeChar) = some value := by
  rw [unescape?, valuePieces?_escaped, Option.bind_some, ofPieces?_percentPieces]

theorem not_mem_escaped {mark : Char} (special : isPlain mark = false) (other : mark ≠ '\\')
    (unlettered : mark.isAlphanum = false) (value : Text) : mark ∉ value.flatMap escapeChar := by
  intro member
  obtain ⟨c, _, member⟩ := List.mem_flatMap.mp member
  cases plain : isPlain c with
  | true =>
    rw [escapeChar_of_isPlain plain] at member
    rw [List.mem_singleton.mp member, plain] at special
    contradiction
  | false =>
    obtain ⟨high, low, _, written, highLettered, lowLettered, _⟩ :=
      escapeChar_of_not_isPlain plain
    simp only [written, List.mem_cons, List.not_mem_nil, or_false] at member
    rcases member with rfl | rfl | rfl
    · exact other rfl
    · simp [unlettered] at highLettered
    · simp [unlettered] at lowLettered

/-- A condition is cut at its equals sign and at the parenthesis that closes it. -/
theorem readItem_written (named : IsName attr) (free : ')' ∉ raw) (rest : Text) :
    readItem (attr ++ '=' :: (raw ++ ')' :: rest)) =
      if raw = ['*'] then .ok (present attr, ')' :: rest)
      else if raw.contains '*' then .error ⟨.substring, ')' :: rest⟩
      else match unescape? raw with
        | none => .error ⟨.badEscape, ')' :: rest⟩
        | some value => .ok (equal attr value, ')' :: rest) := by
  have equalsFree : '=' ∉ attr := not_mem_of_described named.described (by decide) (by decide)
  have valid : (!isAttributeName attr) = false := by simp [isAttributeName_iff.mpr named]
  rw [readItem, cut?_append equalsFree]
  simp only [trim_of_described named.described, valid, refuseIf, cut?_append free, beq_iff_eq]
  cases raw.contains '*' <;> rfl

theorem readItem_present (named : IsName attr) (rest : Text) :
    readItem (attr ++ '=' :: '*' :: ')' :: rest) = .ok (present attr, ')' :: rest) := by
  have closingless : ')' ∉ ['*'] := by decide
  exact readItem_written named closingless rest

theorem readItem_equal (named : IsName attr) (value rest : Text) :
    readItem (attr ++ '=' :: (value.flatMap escapeChar ++ ')' :: rest)) =
      .ok (equal attr value, ')' :: rest) := by
  have starless : '*' ∉ value.flatMap escapeChar :=
    not_mem_escaped (by decide) (by decide) (by decide) value
  have closingless : ')' ∉ value.flatMap escapeChar :=
    not_mem_escaped (by decide) (by decide) (by decide) value
  have other : value.flatMap escapeChar ≠ ['*'] := fun same => starless (by simp [same])
  rw [readItem_written named closingless, if_neg other]
  simp only [List.contains_eq_mem, starless, decide_false, unescape?_escaped]
  rfl

theorem wellNamed_of_readItem (read : readItem input = .ok (filter, rest)) : filter.WellNamed := by
  rw [readItem] at read
  split at read
  · contradiction
  · next before after _ =>
    obtain ⟨_, valid, read⟩ := bind_eq_ok_iff.mp read
    have named : IsName before.trim := by
      simpa [refuseIf_eq_ok_iff, isAttributeName_iff] using valid
    split at read
    · contradiction
    · split at read
      · cases read
        exact .present named
      · obtain ⟨_, _, read⟩ := bind_eq_ok_iff.mp read
        split at read
        · contradiction
        · cases read
          exact .equal named

theorem skipSpaces_of_ne {c : Char} (solid : c ≠ ' ') (rest : Text) :
    skipSpaces (c :: rest) = c :: rest := by
  rw [skipSpaces, List.dropWhile_cons_of_neg (by simpa using solid)]

theorem exists_text_eq (filter : Filter) : ∃ inner, filter.text = '(' :: (inner ++ [')']) := by
  cases filter with
  | present attr => exact ⟨attr ++ ['=', '*'], by simp [text]⟩
  | equal attr value => exact ⟨attr ++ '=' :: value.flatMap escapeChar, by simp [text]⟩
  | and filters => exact ⟨'&' :: textAll filters, rfl⟩
  | or filters => exact ⟨'|' :: textAll filters, rfl⟩
  | not filter => exact ⟨'!' :: filter.text, rfl⟩

theorem length_text_pos (filter : Filter) : 0 < filter.text.length := by
  obtain ⟨inner, text⟩ := filter.exists_text_eq
  simp [text]

/-- The filter is found in its text whatever stands behind it. -/
def ReadsBack (filter : Filter) : Prop :=
  ∀ fuel rest, filter.text.length ≤ fuel →
    readFilter fuel (filter.text ++ rest) = .ok (filter, rest)

theorem readFilter_item {c : Char} {item : Text} (conjunction : c ≠ '&') (disjunction : c ≠ '|')
    (negation : c ≠ '!') (read : readItem (c :: item) = .ok (filter, ')' :: rest)) (fuel : Nat) :
    readFilter (fuel + 1) ('(' :: c :: item) = .ok (filter, rest) := by
  simp only [readFilter, skipSpaces_of_ne (show '(' ≠ ' ' by decide), bind, Except.bind]
  split
  · contradiction
  · next same => exact absurd (List.cons.inj same).1 conjunction
  · next same => exact absurd (List.cons.inj same).1 disjunction
  · next same => exact absurd (List.cons.inj same).1 negation
  · simp [read, skipSpaces_of_ne]

theorem readFilter_and {list : Text} {fuel : Nat}
    (read : readFilters fuel list = .ok (filters, ')' :: rest)) :
    readFilter (fuel + 1) ('(' :: '&' :: list) = .ok (and filters, rest) := by
  simp [readFilter, skipSpaces_of_ne, read, bind, Except.bind]

theorem readFilter_or {list : Text} {fuel : Nat}
    (read : readFilters fuel list = .ok (filters, ')' :: rest)) :
    readFilter (fuel + 1) ('(' :: '|' :: list) = .ok (or filters, rest) := by
  simp [readFilter, skipSpaces_of_ne, read, bind, Except.bind]

theorem readFilter_not {inner : Text} {fuel : Nat}
    (read : readFilter fuel inner = .ok (filter, ')' :: rest)) :
    readFilter (fuel + 1) ('(' :: '!' :: inner) = .ok (not filter, rest) := by
  simp [readFilter, skipSpaces_of_ne, read, bind, Except.bind]

theorem readFilters_nil (fuel : Nat) (rest : Text) :
    readFilters (fuel + 1) (')' :: rest) = .ok ([], ')' :: rest) := by
  simp [readFilters, skipSpaces_of_ne]

theorem readFilters_cons {inner later : Text} {fuel : Nat}
    (first : readFilter fuel ('(' :: inner) = .ok (filter, later))
    (others : readFilters fuel later = .ok (filters, rest)) :
    readFilters (fuel + 1) ('(' :: inner) = .ok (filter :: filters, rest) := by
  simp [readFilters, skipSpaces_of_ne, first, others, bind, Except.bind]

theorem readFilters_textAll (members : ∀ filter ∈ filters, filter.ReadsBack) :
    ∀ fuel rest, (textAll filters).length + 1 ≤ fuel →
      readFilters fuel (textAll filters ++ ')' :: rest) = .ok (filters, ')' :: rest) := by
  induction filters with
  | nil =>
    rintro (_ | fuel) rest enough
    · contradiction
    · exact readFilters_nil fuel rest
  | cons filter others ih =>
    rintro (_ | fuel) rest enough
    · contradiction
    · have positive := filter.length_text_pos
      rw [textAll, List.length_append] at enough
      have first := members filter List.mem_cons_self fuel (textAll others ++ ')' :: rest)
        (by omega)
      have later := ih (fun other listed => members other (List.mem_cons_of_mem _ listed)) fuel rest
        (by omega)
      obtain ⟨inner, text⟩ := filter.exists_text_eq
      rw [text] at first
      rw [textAll, text, List.append_assoc]
      exact readFilters_cons first later

/-- A condition is a name, which opens no list, an equals sign and what stands behind it. -/
theorem readFilter_condition (named : IsName attr) {behind : Text}
    (read : readItem (attr ++ '=' :: behind) = .ok (filter, ')' :: rest)) (fuel : Nat) :
    readFilter (fuel + 1) ('(' :: attr ++ '=' :: behind) = .ok (filter, rest) := by
  cases attr with
  | nil => exact absurd rfl named.nonempty
  | cons c later =>
    have unlike {mark : Char} (unlettered : mark.isAlphanum = false)
        (unmarked : mark ∉ (['-', '.', ';'] : Text)) : c ≠ mark := by
      rintro rfl
      exact not_mem_of_described named.described unlettered unmarked List.mem_cons_self
    exact readFilter_item (unlike (by decide) (by decide)) (unlike (by decide) (by decide))
      (unlike (by decide) (by decide)) read fuel

theorem WellNamed.readsBack (wellNamed : filter.WellNamed) : filter.ReadsBack := by
  induction wellNamed with
  | @present attr named =>
    rintro (_ | fuel) rest enough
    · simp [text] at enough
    · simpa [text] using readFilter_condition named (readItem_present named rest) fuel
  | @equal attr value named =>
    rintro (_ | fuel) rest enough
    · simp [text] at enough
    · simpa [text] using readFilter_condition named (readItem_equal named value rest) fuel
  | and _ members =>
    rintro (_ | fuel) rest enough
    · simp [text] at enough
    · simp only [text, List.cons_append, List.length_cons, List.length_append] at enough
      have read := readFilters_textAll members fuel rest (by omega)
      simpa [text] using readFilter_and read
  | or _ members =>
    rintro (_ | fuel) rest enough
    · simp [text] at enough
    · simp only [text, List.cons_append, List.length_cons, List.length_append] at enough
      have read := readFilters_textAll members fuel rest (by omega)
      simpa [text] using readFilter_or read
  | not _ ih =>
    rintro (_ | fuel) rest enough
    · simp [text] at enough
    · simp only [text, List.cons_append, List.length_cons, List.length_append] at enough
      have read := ih fuel (')' :: rest) (by omega)
      simpa [text] using readFilter_not read

theorem filter_of_closed {inside : Filter} {behind : Text}
    (closed : (match skipSpaces behind with
      | ')' :: after => .ok (inside, after)
      | other => .error ⟨.expectedClosing, other⟩ : Except Fault (Filter × Text)) =
        .ok (filter, rest)) : inside = filter := by
  split at closed
  · cases closed
    rfl
  · contradiction

/-- Whatever is read is named well, filter by filter as the fuel goes down. -/
theorem wellNamed_of_read (fuel : Nat) :
    (∀ input filter rest, readFilter fuel input = .ok (filter, rest) → filter.WellNamed) ∧
      ∀ input filters rest, readFilters fuel input = .ok (filters, rest) →
        ∀ filter ∈ filters, filter.WellNamed := by
  induction fuel with
  | zero =>
    constructor
    · intro input filter rest read
      simp [readFilter] at read
    · intro input filters rest read
      simp [readFilters] at read
  | succ fuel ih =>
    obtain ⟨readsOne, readsList⟩ := ih
    constructor
    · intro input filter rest read
      rw [readFilter] at read
      split at read
      · dsimp only at read
        split at read
        · contradiction
        · obtain ⟨⟨filters, behind⟩, readInside, closed⟩ := bind_eq_ok_iff.mp read
          rw [← filter_of_closed closed]
          exact .and (readsList _ _ _ readInside)
        · obtain ⟨⟨filters, behind⟩, readInside, closed⟩ := bind_eq_ok_iff.mp read
          rw [← filter_of_closed closed]
          exact .or (readsList _ _ _ readInside)
        · obtain ⟨⟨inside, behind⟩, readInside, closed⟩ := bind_eq_ok_iff.mp read
          rw [← filter_of_closed closed]
          exact .not (readsOne _ _ _ readInside)
        · obtain ⟨⟨condition, behind⟩, readInside, closed⟩ := bind_eq_ok_iff.mp read
          rw [← filter_of_closed closed]
          exact wellNamed_of_readItem readInside
      · contradiction
    · intro input filters rest read
      rw [readFilters] at read
      split at read
      · obtain ⟨⟨first, later⟩, readFirst, read⟩ := bind_eq_ok_iff.mp read
        obtain ⟨⟨others, behind⟩, readOthers, same⟩ := bind_eq_ok_iff.mp read
        cases same
        intro filter listed
        rcases List.mem_cons.mp listed with rfl | listed
        · exact readsOne _ _ _ readFirst
        · exact readsList _ _ _ readOthers filter listed
      · cases read
        simp

theorem trim_text (filter : Filter) : filter.text.trim = filter.text := by
  obtain ⟨inner, text⟩ := filter.exists_text_eq
  rw [text]
  refine trim_eq_self_of_ends (fun c first => ?_) (fun c last => ?_)
  · cases first
    rfl
  · rw [← List.cons_append, List.getLast?_concat] at last
    cases last
    rfl

theorem parse_eq_ok_iff {given : Text} :
    parse given = .ok filter ↔
      readFilter (2 * given.trim.length + 2) given.trim = .ok (filter, []) := by
  rw [parse]
  dsimp only
  rw [mapError_eq_ok_iff]
  constructor
  · intro parsed
    obtain ⟨⟨filter, rest⟩, read, whole⟩ := bind_eq_ok_iff.mp parsed
    obtain ⟨_, spent, same⟩ := bind_eq_ok_iff.mp whole
    cases same
    obtain rfl : rest = [] := by simpa [refuseIf_eq_ok_iff] using spent
    exact read
  · intro found
    simp [read, found, refuseIf, bind, Except.bind]

theorem WellNamed.parse_text (wellNamed : filter.WellNamed) : parse filter.text = .ok filter := by
  have read := wellNamed.readsBack (2 * filter.text.length + 2) [] (by omega)
  rw [List.append_nil] at read
  rwa [parse_eq_ok_iff, trim_text]

/-- Writing and reading a filter gives the same filter just when each of its conditions names an
attribute by letters, digits, hyphens, dots and semicolons of ASCII, whatever its values are; and
these filters are all that reading ever gives. -/
theorem parse_text_iff (filter : Filter) :
    (parse filter.text = .ok filter ↔ filter.WellNamed) ∧
      ((∃ given, parse given = .ok filter) ↔ filter.WellNamed) := by
  have sound {given : Text} (parsed : parse given = .ok filter) : filter.WellNamed :=
    (wellNamed_of_read _).1 _ _ _ (parse_eq_ok_iff.mp parsed)
  exact ⟨⟨sound, WellNamed.parse_text⟩, fun ⟨_, parsed⟩ => sound parsed,
    fun wellNamed => ⟨_, wellNamed.parse_text⟩⟩

/-- Empty lists inside a negation, and a value of nothing but characters with a meaning, between
blanks, NUL and a letter beyond ASCII. -/
theorem parse_text_delimiters :
    let filter : Filter := .and [.or [], .not (.and []), .present "a;x-1.2",
      .equal "cn" (" *()\\" ++ [Char.ofNat 0, '\u00e9', ' ']), .equal "CN" []]
    filter.WellNamed ∧ parse filter.text = .ok filter := by
  have named (attr : Text) (valid : isAttributeName attr = true) : IsName attr :=
    isAttributeName_iff.mp valid
  intro filter
  have wellNamed : filter.WellNamed := by
    refine .and fun member listed => ?_
    simp only [List.mem_cons, List.not_mem_nil, or_false] at listed
    rcases listed with rfl | rfl | rfl | rfl | rfl
    · exact .or (by simp)
    · exact .not (.and (by simp))
    · exact .present (named _ (by decide +kernel))
    · exact .equal (named _ (by decide +kernel))
    · exact .equal (named _ (by decide +kernel))
  exact ⟨wellNamed, (parse_text_iff filter).1.mpr wellNamed⟩

end Directory.Filter
