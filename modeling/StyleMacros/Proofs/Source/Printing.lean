import StyleMacros.Proofs.Source.Balance
import StyleMacros.Proofs.Text.Words

/-!
# Names and lists written out

Dotted names, generic parameters and inherited types have one plain spelling each. Read from in
front of a mark that may stand behind them they come back as they were, and so does a list of
them with commas in between.
-/

set_option autoImplicit false

namespace StyleMacros

/-! ## Dotted names -/

structure DottedName where
  first : Text
  members : List Text
  words : ∀ word ∈ first :: members, word.isIdentifier = true

def memberText (members : List Text) : Text :=
  members.flatMap fun word => '.' :: word

theorem memberText_cons (word : Text) (others : List Text) :
    memberText (word :: others) = '.' :: (word ++ memberText others) := by
  simp [memberText]

theorem endsWord_memberText {mark : Char} (stops : mark ∈ punctuation) (members : List Text)
    (rest : Text) : Text.EndsWord (memberText members ++ mark :: rest) := by
  cases members with
  | nil => exact Text.endsWord_of_punctuation stops rest
  | cons word others =>
      rw [memberText_cons]
      exact Text.endsWord_of_punctuation (by decide) _

theorem length_le_memberText (members : List Text) :
    members.length ≤ (memberText members).length := by
  induction members with
  | nil => exact Nat.le_refl _
  | cons word others inductionHypothesis =>
      rw [memberText_cons, List.length_cons, List.length_cons, List.length_append]
      omega

theorem skipTrivia_append_of_isIdentifier {name : Text} (word : name.isIdentifier = true)
    (rest : Text) : skipTrivia (name ++ rest) = name ++ rest := by
  cases name with
  | nil => simp [Text.isIdentifier] at word
  | cons head others =>
      have solid := notMem_punctuation_of_isIdentifierContinue
        (Text.isIdentifierContinue_of_mem word (List.mem_cons_self))
      simp only [punctuation, List.mem_cons, List.not_mem_nil, or_false, not_or] at solid
      apply skipTrivia_of_token
      · simp [isTokenBlank, solid]
      · rintro rfl
        simp at solid

section Members

variable {members : List Text} {mark : Char} {fuel : Nat}

theorem afterMembers_append (words : ∀ word ∈ members, word.isIdentifier = true)
    (stops : mark ∈ punctuation) (noDot : mark ≠ '.') (rest : Text)
    (enough : members.length ≤ fuel) :
    afterMembers fuel (memberText members ++ mark :: rest) = mark :: rest := by
  induction members generalizing fuel with
  | nil =>
      cases fuel with
      | zero => rfl
      | succ fuel => simp [memberText, afterMembers, noDot]
  | cons word others inductionHypothesis =>
      cases fuel with
      | zero => simp at enough
      | succ fuel =>
          have read := Text.identifier?_append (words word List.mem_cons_self)
            (endsWord_memberText stops others rest)
          rw [memberText_cons, List.cons_append, List.append_assoc, afterMembers]
          simp only [read]
          exact inductionHypothesis (fun later member => words later (List.mem_cons_of_mem _ member))
            (Nat.le_of_succ_le_succ enough)

theorem afterAngleGroup_of_noAngle {head : Char} (noAngle : head ≠ '<') (rest : Text) :
    afterAngleGroup (head :: rest) = head :: rest := by
  have none : Region.angleOpenings (head :: rest) = [] := by
    simp [Region.angleOpenings, noAngle]
  rw [afterAngleGroup, none]
  rfl

theorem afterAngleGroup_memberText (noAngle : mark ≠ '<') (members : List Text) (rest : Text) :
    afterAngleGroup (memberText members ++ mark :: rest) = memberText members ++ mark :: rest := by
  cases members with
  | nil => exact afterAngleGroup_of_noAngle noAngle rest
  | cons word others =>
      rw [memberText_cons]
      exact afterAngleGroup_of_noAngle (by decide) _

theorem afterTypeMembers_append (words : ∀ word ∈ members, word.isIdentifier = true)
    (stops : mark ∈ punctuation) (noDot : mark ≠ '.') (noAngle : mark ≠ '<') (rest : Text)
    (enough : members.length ≤ fuel) :
    afterTypeMembers fuel (memberText members ++ mark :: rest) = mark :: rest := by
  induction members generalizing fuel with
  | nil =>
      cases fuel with
      | zero => rfl
      | succ fuel => simp [memberText, afterTypeMembers, noDot]
  | cons word others inductionHypothesis =>
      cases fuel with
      | zero => simp at enough
      | succ fuel =>
          have read := Text.identifier?_append (words word List.mem_cons_self)
            (endsWord_memberText stops others rest)
          rw [memberText_cons, List.cons_append, List.append_assoc, afterTypeMembers]
          simp only [read, afterAngleGroup_memberText noAngle]
          exact inductionHypothesis (fun later member => words later (List.mem_cons_of_mem _ member))
            (Nat.le_of_succ_le_succ enough)

end Members

namespace DottedName

variable (name : DottedName) {mark : Char}

def text : Text :=
  name.first ++ memberText name.members

theorem first_isIdentifier : name.first.isIdentifier = true :=
  name.words _ List.mem_cons_self

theorem members_isIdentifier : ∀ word ∈ name.members, word.isIdentifier = true :=
  fun word member => name.words word (List.mem_cons_of_mem _ member)

theorem mem_text {char : Char} (member : char ∈ name.text) :
    isIdentifierContinue char = true ∨ char = '.' := by
  rcases List.mem_append.mp member with inFirst | inMembers
  · exact .inl (Text.isIdentifierContinue_of_mem name.first_isIdentifier inFirst)
  · obtain ⟨word, wordMember, inWord⟩ := List.mem_flatMap.mp inMembers
    rcases List.mem_cons.mp inWord with rfl | later
    · exact .inr rfl
    · exact .inl (Text.isIdentifierContinue_of_mem (name.members_isIdentifier word wordMember) later)

theorem ne_of_mem_text {char : Char} (member : char ∈ name.text) {mark : Char}
    (stops : mark ∈ punctuation) (noDot : mark ≠ '.') : char ≠ mark := by
  rintro rfl
  rcases name.mem_text member with continues | dot
  · exact notMem_punctuation_of_isIdentifierContinue continues stops
  · exact noDot dot

theorem trim_text : name.text.trim = name.text := by
  apply Text.trim_of_solid
  intro char member
  rcases name.mem_text member with continues | rfl
  · exact isWhitespace_eq_false_of_isIdentifierContinue continues
  · decide

theorem exists_head : ∃ head rest, name.text = head :: rest ∧ isIdentifierContinue head = true := by
  have word := name.first_isIdentifier
  rw [text]
  cases first : name.first with
  | nil => simp [first, Text.isIdentifier] at word
  | cons head rest =>
      exact ⟨head, rest ++ memberText name.members, rfl,
        Text.isIdentifierContinue_of_mem word (first ▸ List.mem_cons_self)⟩

theorem skipTrivia_text (rest : Text) : skipTrivia (name.text ++ rest) = name.text ++ rest := by
  rw [text, List.append_assoc]
  exact skipTrivia_append_of_isIdentifier name.first_isIdentifier _

theorem readDottedName_text (stops : mark ∈ punctuation) (noDot : mark ≠ '.') (rest : Text) :
    readDottedName (name.text ++ mark :: rest) = some (name.text, mark :: rest) := by
  have read := Text.identifier?_append name.first_isIdentifier
    (endsWord_memberText stops name.members rest)
  have enough : name.members.length ≤ (memberText name.members ++ mark :: rest).length := by
    have length := length_le_memberText name.members
    rw [List.length_append]
    omega
  have ends := afterMembers_append name.members_isIdentifier stops noDot rest enough
  rw [readDottedName, text, List.append_assoc, read]
  simp only [Option.bind_eq_bind, Option.bind_some, ends]
  rw [← List.append_assoc, Text.before_append]
  rfl

theorem afterTypePath?_text (stops : mark ∈ punctuation) (noDot : mark ≠ '.')
    (noAngle : mark ≠ '<') (rest : Text) :
    afterTypePath? (name.text ++ mark :: rest) = some (mark :: rest) := by
  have read := Text.identifier?_append name.first_isIdentifier
    (endsWord_memberText stops name.members rest)
  have enough : name.members.length ≤ (memberText name.members ++ mark :: rest).length := by
    have length := length_le_memberText name.members
    rw [List.length_append]
    omega
  have ends := afterTypeMembers_append name.members_isIdentifier stops noDot noAngle rest enough
  rw [afterTypePath?, text, List.append_assoc, read]
  simp only [Option.bind_eq_bind, Option.bind_some, afterAngleGroup_memberText noAngle, ends]
  rfl

end DottedName

/-! ## Lists -/

section Lists

variable {Item Element : Type}

theorem readFurther_of_noComma {read : Text → Option (Element × Text)} {text : Text}
    (last : (skipTrivia text).head? ≠ some ',') (fuel : Nat) :
    readFurther read fuel text = ([], text) := by
  cases fuel with
  | zero => rfl
  | succ fuel =>
      rw [readFurther]
      split
      · rename_i behind same
        rw [same] at last
        exact absurd rfl last
      · rfl

def listed (write : Item → Text) : List Item → Text
  | [] => []
  | first :: others => write first ++ others.flatMap fun item => ',' :: ' ' :: write item

/-- The reader gets each item back that is written in front of a text at which items end. -/
structure ReadsBack (read : Text → Option (Element × Text)) (write : Item → Text)
    (value : Item → Element) (Ends : Text → Prop) (items : List Item) : Prop where
  reads : ∀ item ∈ items, ∀ tail, Ends tail → read (write item ++ tail) = some (value item, tail)
  starts : ∀ item ∈ items, ∀ tail, skipTrivia (write item ++ tail) = write item ++ tail
  comma : ∀ tail, Ends (',' :: tail)

variable {read : Text → Option (Element × Text)} {write : Item → Text} {value : Item → Element}
  {Ends : Text → Prop}

theorem ReadsBack.tail {first : Item} {others : List Item}
    (back : ReadsBack read write value Ends (first :: others)) :
    ReadsBack read write value Ends others where
  reads := fun item member => back.reads item (List.mem_cons_of_mem first member)
  starts := fun item member => back.starts item (List.mem_cons_of_mem first member)
  comma := back.comma

theorem ReadsBack.ends_further {items : List Item} (back : ReadsBack read write value Ends items)
    {rest : Text} (ends : Ends rest) :
    Ends ((items.flatMap fun item => ',' :: ' ' :: write item) ++ rest) := by
  cases items with
  | nil => exact ends
  | cons first others => exact back.comma _

theorem ReadsBack.readFurther {items : List Item} (back : ReadsBack read write value Ends items)
    {rest : Text} (ends : Ends rest) (last : (skipTrivia rest).head? ≠ some ',') {fuel : Nat}
    (enough : items.length ≤ fuel) :
    readFurther read fuel ((items.flatMap fun item => ',' :: ' ' :: write item) ++ rest) =
      (items.map value, rest) := by
  induction items generalizing fuel with
  | nil => exact readFurther_of_noComma last fuel
  | cons first others inductionHypothesis =>
      cases fuel with
      | zero => simp at enough
      | succ fuel =>
          have element := back.reads first List.mem_cons_self _ (back.tail.ends_further ends)
          have start := back.starts first List.mem_cons_self
            ((others.flatMap fun item => ',' :: ' ' :: write item) ++ rest)
          rw [List.flatMap_cons, List.append_assoc, List.cons_append, List.cons_append,
            StyleMacros.readFurther, skipTrivia_of_token (by decide) (by decide)]
          simp only [skipTrivia_of_blank (by decide : isTokenBlank ' ' = true), start, element]
          rw [inductionHypothesis back.tail (Nat.le_of_succ_le_succ enough)]
          rfl

theorem length_le_flatMap_cons {Token : Type} (items : List Item) (mark : Token)
    (write : Item → List Token) :
    items.length ≤ (items.flatMap fun item => mark :: write item).length := by
  induction items with
  | nil => exact Nat.le_refl _
  | cons first others inductionHypothesis =>
      rw [List.flatMap_cons, List.length_append, List.length_cons, List.length_cons]
      omega

theorem ReadsBack.skipTrivia_listed {items : List Item}
    (back : ReadsBack read write value Ends items) (nonempty : items ≠ []) (rest : Text) :
    skipTrivia (listed write items ++ rest) = listed write items ++ rest := by
  cases items with
  | nil => exact absurd rfl nonempty
  | cons first others =>
      rw [listed, List.append_assoc]
      exact back.starts first List.mem_cons_self _

theorem ReadsBack.readSeparated {items : List Item} (back : ReadsBack read write value Ends items)
    (nonempty : items ≠ []) {rest : Text} (ends : Ends rest)
    (last : (skipTrivia rest).head? ≠ some ',') :
    readSeparated read (listed write items ++ rest) = some (items.map value, rest) := by
  cases items with
  | nil => exact absurd rfl nonempty
  | cons first others =>
      have element := back.reads first List.mem_cons_self _ (back.tail.ends_further ends)
      have enough : others.length ≤
          ((others.flatMap fun item => ',' :: ' ' :: write item) ++ rest).length := by
        have length := length_le_flatMap_cons others ',' fun item => ' ' :: write item
        rw [List.length_append]
        omega
      rw [listed, List.append_assoc, StyleMacros.readSeparated, element]
      simp only [Option.bind_eq_bind, Option.bind_some,
        back.tail.readFurther ends last enough]
      rfl

end Lists

end StyleMacros
