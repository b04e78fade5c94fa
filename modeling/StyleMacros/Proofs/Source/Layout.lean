import StyleMacros.Proofs.Source.Clauses
import StyleMacros.Proofs.Source.Inert

/-!
# The layout of a header

The header of a declaration is a row of tokens, each with a stretch of text behind it. Behind most
tokens the stretch is a gap, which the reader passes over as trivia; behind `where` and in the
constraint of a parameter it belongs to a region that is read as it stands, up to a delimiter.
A comment can be put into any stretch, and where the stretch is a gap it still is one.
-/

set_option autoImplicit false

namespace StyleMacros

/-! ## Gaps -/

/-- Text between two tokens: whatever stands behind it, it is passed over. -/
def Gap (stretch : Text) : Prop :=
  ∀ rest, skipTrivia (stretch ++ rest) = skipTrivia rest

def Starts (text : Text) : Prop :=
  ∀ rest, skipTrivia (text ++ rest) = text ++ rest

/-- A line comment with the line break that ends it, or a block comment that is closed. -/
inductive WholeComment : Text → Prop
  | line {words : Text} {feed : Char} (inLine : ∀ char ∈ words, isLineBreak char = false)
      (ends : isLineBreak feed = true) : WholeComment ('/' :: '/' :: (words ++ [feed]))
  | block {content : Text} (closed : CommentContent content) :
      WholeComment ('/' :: '*' :: (content ++ ['*', '/']))

namespace Gap

variable {stretch left right : Text}

theorem nil : Gap [] :=
  fun _ => rfl

theorem append (first : Gap left) (second : Gap right) : Gap (left ++ right) := by
  intro rest
  rw [List.append_assoc, first, second]

theorem blanks (blank : ∀ char ∈ stretch, isTokenBlank char = true) : Gap stretch :=
  skipTrivia_blanks_append blank

theorem comment (whole : WholeComment stretch) : Gap stretch := by
  intro rest
  cases whole with
  | @line words feed inLine ends =>
      have blank : isTokenBlank feed = true := by
        simp only [isLineBreak, Bool.or_eq_true, decide_eq_true_eq] at ends
        rcases ends with rfl | rfl <;> decide
      have feeds : ∀ char ∈ (feed :: rest).head?, isLineBreak char = true := by
        rintro char ⟨⟩
        exact ends
      rw [List.cons_append, List.cons_append, List.append_assoc, List.singleton_append,
        skipTrivia_lineComment inLine feeds]
      exact skipTrivia_of_blank blank rest
  | @block content closed => exact skipTrivia_comment (.blockComment closed) rfl

end Gap

theorem starts_of_token {head : Char} (solid : isTokenBlank head = false) (noSlash : head ≠ '/')
    (tail : Text) : Starts (head :: tail) :=
  fun rest => skipTrivia_of_token solid noSlash (tail ++ rest)

theorem starts_of_isIdentifier {name : Text} (word : name.isIdentifier = true) : Starts name :=
  skipTrivia_append_of_isIdentifier word

structure SpacedComment where
  front : Text
  comment : Text
  back : Text
  whole : WholeComment comment
  frontBlank : ∀ char ∈ front, isTokenBlank char = true
  backBlank : ∀ char ∈ back, isTokenBlank char = true
  spaced : front ≠ []

namespace SpacedComment

variable (spaced : SpacedComment)

def text : Text :=
  spaced.front ++ (spaced.comment ++ spaced.back)

theorem gap : Gap spaced.text :=
  (Gap.blanks spaced.frontBlank).append
    ((Gap.comment spaced.whole).append (Gap.blanks spaced.backBlank))

theorem exists_blank : ∃ head rest, spaced.text = head :: rest ∧ isTokenBlank head = true := by
  rw [text]
  cases same : spaced.front with
  | nil => exact absurd same spaced.spaced
  | cons head rest => exact ⟨head, _, rfl, spaced.frontBlank head (same ▸ List.mem_cons_self)⟩

end SpacedComment

/-! ## Regions that are passed over -/

/-- The region goes over the whole text, whatever stands behind it. -/
def Region.Runs (region : Region) (text : Text) : Prop :=
  ∀ rest, region.afterContent (text ++ rest) = region.afterContent rest

namespace Region.Runs

variable {region : Region} {left right : Text}

theorem nil : region.Runs [] :=
  fun _ => rfl

theorem append (first : region.Runs left) (second : region.Runs right) :
    region.Runs (left ++ right) := by
  intro rest
  rw [List.append_assoc, first, second]

theorem requirements_of_plain (plain : ∀ char ∈ left, char ∉ requirementMarks) :
    Region.requirements.Runs left :=
  fun rest => Region.afterContent_run
    (fun char member tail => requirements_pass (plain char member) tail) rest

end Region.Runs

/-! ## Tokens -/

def headerMarks : List Char :=
  ['<', '>', ',', ':']

inductive HeaderToken where
  /-- A modifier, the keyword or the name of a parameter. -/
  | word (letters : Text)
  /-- The name of the declaration. -/
  | path (dotted : DottedName)
  /-- One of the marks of a header. -/
  | mark (char : Char)
  /-- The beginning of a constraint. -/
  | constraint (start : Text)
  | inherited (type : Text)
  | where_

namespace HeaderToken

def text : HeaderToken → Text
  | .word letters => letters
  | .path dotted => dotted.text
  | .mark char => [char]
  | .constraint start => start
  | .inherited type => type
  | .where_ => "where"

/-- The token can be read for itself. -/
def Valid : HeaderToken → Prop
  | .word letters => letters.isIdentifier = true
  | .path _ => True
  | .mark char => char ∈ headerMarks
  | .constraint start => start ≠ [] ∧ Starts start
  | .inherited type => type ≠ [] ∧ Starts type ∧
      ∀ tail, EndsType tail → readTypeReference (type ++ tail) = some (type, tail)
  | .where_ => True

/-- The characters that may stand right behind the token. -/
def Stops : HeaderToken → Char → Prop
  | .word _, char => isIdentifierContinue char = false
  | .path _, char => char ∈ punctuation ∧ char ≠ '.'
  | .mark _, _ => True
  | .constraint _, _ => True
  | .inherited _, char => char ∈ typeStops
  | .where_, char => isIdentifierContinue char = false

def Passes : HeaderToken → Text → Prop
  | .constraint start, stretch => Region.constraint.Runs (start ++ stretch)
  | .where_, stretch => Region.requirements.Runs stretch
  | _, stretch => Gap stretch

/-- Where something can be put into the stretch behind a token: between two pieces of a gap, or in
a region that goes over it. -/
def Takes (token : HeaderToken) (left inserted right : Text) : Prop :=
  match token with
  | .constraint start => Region.constraint.Runs (start ++ (left ++ right)) ∧
      Region.constraint.Runs (start ++ (left ++ (inserted ++ right)))
  | .where_ => Region.requirements.Runs (left ++ right) ∧
      Region.requirements.Runs (left ++ (inserted ++ right))
  | _ => Gap left ∧ Gap right

theorem Valid.ne_nil {token : HeaderToken} (valid : token.Valid) : token.text ≠ [] := by
  cases token with
  | word letters =>
      rintro rfl
      cases valid
  | path dotted =>
      obtain ⟨head, rest, same, _⟩ := dotted.exists_head
      show dotted.text ≠ []
      rw [same]
      exact List.cons_ne_nil head rest
  | mark char => exact List.cons_ne_nil char []
  | constraint start => exact valid.1
  | inherited type => exact valid.1
  | where_ => exact List.cons_ne_nil 'w' _

theorem Valid.starts {token : HeaderToken} (valid : token.Valid) : Starts token.text := by
  cases token with
  | word letters => exact starts_of_isIdentifier valid
  | path dotted => exact dotted.skipTrivia_text
  | mark char =>
      have solid : ∀ mark ∈ headerMarks, isTokenBlank mark = false ∧ mark ≠ '/' := by
        decide
      exact starts_of_token (solid char valid).1 (solid char valid).2 []
  | constraint start => exact valid.2
  | inherited type => exact valid.2.1
  | where_ => exact starts_of_token (by decide) (by decide) _

theorem stops_of_blank (token : HeaderToken) {char : Char} (blank : isTokenBlank char = true) :
    token.Stops char := by
  have blanks : ∀ mark ∈ [' ', '\t', '\n', '\r'],
      mark ∈ punctuation ∧ mark ≠ '.' ∧ mark ∈ typeStops := by
    decide
  have marked := blanks char (by simpa [isTokenBlank, or_assoc] using blank)
  have noLetter : isIdentifierContinue char = false := Bool.eq_false_iff.mpr fun continues =>
    notMem_punctuation_of_isIdentifierContinue continues marked.1
  cases token with
  | word letters => exact noLetter
  | path dotted => exact ⟨marked.1, marked.2.1⟩
  | mark char => trivial
  | constraint start => trivial
  | inherited type => exact marked.2.2
  | where_ => exact noLetter

theorem Takes.passes {token : HeaderToken} {left inserted right : Text}
    (takes : token.Takes left inserted right) (gap : Gap inserted) :
    token.Passes (left ++ right) ∧ token.Passes (left ++ (inserted ++ right)) := by
  cases token with
  | constraint start => exact takes
  | where_ => exact takes
  | word letters => exact ⟨takes.1.append takes.2, takes.1.append (gap.append takes.2)⟩
  | path dotted => exact ⟨takes.1.append takes.2, takes.1.append (gap.append takes.2)⟩
  | mark char => exact ⟨takes.1.append takes.2, takes.1.append (gap.append takes.2)⟩
  | inherited type => exact ⟨takes.1.append takes.2, takes.1.append (gap.append takes.2)⟩

end HeaderToken

/-! ## Rows of tokens -/

/-- The text is the row of tokens, each with what stands behind it, in front of the text `tail`. -/
inductive Laid (tail : Text) : List HeaderToken → Text → Prop
  | nil : Laid tail [] tail
  | cons {token : HeaderToken} {tokens : List HeaderToken} {stretch behind : Text}
      (valid : token.Valid) (passes : token.Passes stretch)
      (stops : ∀ char ∈ (stretch ++ behind).head?, token.Stops char)
      (later : Laid tail tokens behind) :
      Laid tail (token :: tokens) (token.text ++ (stretch ++ behind))

/-- A place in the row at which a text can be put: `front` stands before it and `back` behind
it. -/
inductive InsertionPoint (tail inserted : Text) : List HeaderToken → Text → Text → Prop
  | here {token : HeaderToken} {tokens : List HeaderToken} {left right behind : Text}
      (valid : token.Valid) (takes : token.Takes left inserted right)
      (stops : ∀ char ∈ (left ++ (right ++ behind)).head?, token.Stops char)
      (later : Laid tail tokens behind) :
      InsertionPoint tail inserted (token :: tokens) (token.text ++ left) (right ++ behind)
  | later {token : HeaderToken} {tokens : List HeaderToken} {stretch front back : Text}
      (valid : token.Valid) (passes : token.Passes stretch)
      (stops : ∀ char ∈ (stretch ++ front).head?, token.Stops char)
      (point : InsertionPoint tail inserted tokens front back) :
      InsertionPoint tail inserted (token :: tokens) (token.text ++ (stretch ++ front)) back

namespace InsertionPoint

variable {tail inserted front back : Text} {tokens : List HeaderToken}

theorem front_ne_nil (point : InsertionPoint tail inserted tokens front back) : front ≠ [] := by
  cases point with
  | here valid => exact List.append_ne_nil_of_left_ne_nil valid.ne_nil _
  | later valid => exact List.append_ne_nil_of_left_ne_nil valid.ne_nil _

/-- The row is laid out without what is inserted, and with it. -/
theorem laid (point : InsertionPoint tail inserted tokens front back) (gap : Gap inserted)
    (blank : ∀ char ∈ inserted.head?, isTokenBlank char = true) (nonempty : inserted ≠ []) :
    Laid tail tokens (front ++ back) ∧ Laid tail tokens (front ++ (inserted ++ back)) := by
  induction point with
  | @here token tokens left right behind valid takes stops later =>
      obtain ⟨without, with_⟩ := takes.passes gap
      have first : ∀ char ∈ ((left ++ (inserted ++ right)) ++ behind).head?, token.Stops char := by
        cases left with
        | nil =>
            cases same : inserted with
            | nil => exact absurd same nonempty
            | cons head rest =>
                rintro char ⟨⟩
                exact token.stops_of_blank (blank head (same ▸ rfl))
        | cons head rest => exact stops
      rw [← List.append_assoc] at stops
      constructor
      · have row := Laid.cons valid without stops later
        rwa [List.append_assoc, ← List.append_assoc left]
      · have row := Laid.cons valid with_ first later
        rwa [List.append_assoc, ← List.append_assoc inserted, ← List.append_assoc left]
  | @later token tokens stretch front back valid passes stops point inductionHypothesis =>
      have kept (rest : Text) :
          ∀ char ∈ (stretch ++ (front ++ rest)).head?, token.Stops char := by
        have nonempty : stretch ++ front ≠ [] :=
          List.append_ne_nil_of_right_ne_nil stretch point.front_ne_nil
        rwa [← List.append_assoc, List.head?_append_of_ne_nil _ nonempty]
      rw [List.append_assoc, List.append_assoc, List.append_assoc, List.append_assoc]
      exact ⟨.cons valid passes (kept back) inductionHypothesis.1,
        .cons valid passes (kept _) inductionHypothesis.2⟩

end InsertionPoint

end StyleMacros
