import StyleMacros.Code.Layout
import StyleMacros.Proofs.Source.Balance
import StyleMacros.Proofs.Text.Marks

/-!
# Nesting of brackets

The brackets of a text are followed with a stack of the marks by which the open ones have to be
closed. A text whose brackets nest leaves every stack as it is, so it may be put anywhere without
a change to what is open behind it. Without strings and comments such a text is balanced in the
sense of the source grammar as well.
-/

set_option autoImplicit false

namespace StyleMacros

def closingOf? (char : Char) : Option Char :=
  if char = '(' then some ')'
  else if char = '[' then some ']'
  else if char = '\x7b' then some '\x7d'
  else none

def closingMarks : List Char :=
  [')', ']', '\x7d']

/-- The stack behind one character. A mark that does not close the innermost bracket has none. -/
def nest (stack : List Char) (char : Char) : Option (List Char) :=
  match closingOf? char with
  | some mark => some (mark :: stack)
  | none =>
    if char ∈ closingMarks then if stack.head? = some char then some stack.tail else none
    else some stack

/-! ## Single characters -/

section Step

variable {stack out : List Char} {char : Char}

theorem notMem_closingMarks_of_closingOf? {mark : Char} (opens : closingOf? char = some mark) :
    char ∉ closingMarks ∧ mark ∈ closingMarks := by
  unfold closingOf? at opens
  split at opens
  · subst char
    cases opens
    decide
  · split at opens
    · subst char
      cases opens
      decide
    · split at opens
      · subst char
        cases opens
        decide
      · cases opens

theorem nest_cases (step : nest stack char = some out) :
    (∃ mark, closingOf? char = some mark ∧ out = mark :: stack) ∨
      (char ∈ closingMarks ∧ closingOf? char = none ∧ stack = char :: out) ∨
      (char ∉ closingMarks ∧ closingOf? char = none ∧ out = stack) := by
  unfold nest at step
  split at step
  · rename_i mark opens
    exact .inl ⟨mark, opens, (Option.some.inj step).symm⟩
  · rename_i plain
    split at step
    · rename_i closes
      split at step
      · rename_i top
        obtain ⟨below, rfl⟩ := List.head?_eq_some_iff.mp top
        exact .inr (.inl ⟨closes, plain, congrArg _ (Option.some.inj step)⟩)
      · cases step
    · rename_i other
      exact .inr (.inr ⟨other, plain, (Option.some.inj step).symm⟩)

theorem nest_append (below : List Char) (step : nest stack char = some out) :
    nest (stack ++ below) char = some (out ++ below) := by
  unfold nest
  rcases nest_cases step with ⟨mark, opens, rfl⟩ | ⟨closes, plain, rfl⟩ | ⟨other, plain, rfl⟩
  · simp only [opens, List.cons_append]
  · simp only [plain, closes, if_true, List.cons_append, List.head?_cons, List.tail_cons]
  · simp only [plain, other, if_false]

end Step

namespace Text

def nesting (stack : List Char) (text : Text) : Option (List Char) :=
  text.foldlM nest stack

/-- Every bracket of the text is closed in it, the innermost first, and none that is not its own. -/
def Nested (text : Text) : Prop :=
  nesting [] text = some []

instance (text : Text) : Decidable text.Nested :=
  inferInstanceAs (Decidable (_ = _))

variable {stack out : List Char} {text : Text}

theorem nesting_cons (stack : List Char) (head : Char) (rest : Text) :
    nesting stack (head :: rest) = (nest stack head).bind fun between => nesting between rest :=
  List.foldlM_cons

theorem nesting_append (stack : List Char) (left right : Text) :
    nesting stack (left ++ right) =
      (nesting stack left).bind fun between => nesting between right :=
  List.foldlM_append

/-! ## Other stacks -/

theorem nesting_append_stack (below : List Char) (run : nesting stack text = some out) :
    nesting (stack ++ below) text = some (out ++ below) := by
  induction text generalizing stack with
  | nil =>
      cases Option.some.inj run
      rfl
  | cons head rest inductionHypothesis =>
      rw [nesting_cons] at run ⊢
      obtain ⟨between, step, later⟩ := Option.bind_eq_some_iff.mp run
      rw [nest_append below step, Option.bind_some]
      exact inductionHypothesis later

theorem Nested.nesting_eq (nested : text.Nested) (stack : List Char) :
    nesting stack text = some stack :=
  nesting_append_stack stack nested

/-- A text that nests may stand anywhere in another one. -/
theorem Nested.nesting_insert (nested : text.Nested) (stack : List Char) (front back : Text) :
    nesting stack (front ++ (text ++ back)) = nesting stack (front ++ back) := by
  rw [nesting_append, nesting_append]
  congr 1
  funext between
  rw [nesting_append, nested.nesting_eq, Option.bind_some]

/-! ## Numbers of brackets -/

/-- Of each kind of bracket, as many are open behind a text as were open in front of it and opened
in it, less those that are closed in it. -/
theorem count_of_nesting {opening closing : Char} (pair : closingOf? opening = some closing)
    (run : nesting stack text = some out) :
    stack.count closing + text.count opening = out.count closing + text.count closing := by
  have opens (char : Char) : closingOf? char = some closing ↔ char = opening := by
    unfold closingOf? at pair ⊢
    grind
  induction text generalizing stack with
  | nil =>
      cases Option.some.inj run
      rfl
  | cons head rest inductionHypothesis =>
      rw [nesting_cons] at run
      obtain ⟨between, step, later⟩ := Option.bind_eq_some_iff.mp run
      have behind := inductionHypothesis later
      have apart := notMem_closingMarks_of_closingOf? pair
      rw [List.count_cons, List.count_cons]
      rcases nest_cases step with ⟨mark, open_, rfl⟩ | ⟨closes, plain, rfl⟩ | ⟨other, plain, rfl⟩
      · have unlike : head ≠ closing := fun same =>
          (notMem_closingMarks_of_closingOf? open_).1 (same ▸ apart.2)
        have same : head = opening ↔ mark = closing := by
          rw [← opens head, open_, Option.some_inj]
        rw [List.count_cons] at behind
        simp only [beq_iff_eq, unlike, same, if_false] at behind ⊢
        omega
      · have unlike : head ≠ opening := fun same => apart.1 (same ▸ closes)
        rw [List.count_cons]
        simp only [beq_iff_eq, unlike, if_false]
        omega
      · have first : head ≠ opening := fun same => by
          rw [same, pair] at plain
          cases plain
        have second : head ≠ closing := fun same => other (same ▸ apart.2)
        simp only [beq_iff_eq, first, second, if_false]
        omega

/-! ## Characters without meaning -/

theorem nest_of_notMem {char : Char} (plain : char ∉ structuralChars) (stack : List Char) :
    nest stack char = some stack := by
  simp only [structuralChars, List.mem_cons, List.not_mem_nil, or_false, not_or] at plain
  simp [nest, closingOf?, closingMarks, plain]

theorem nesting_filter {keeps : Char → Bool}
    (passes : ∀ char, keeps char = false → char ∉ structuralChars) (stack : List Char)
    (text : Text) : nesting stack (text.filter keeps) = nesting stack text := by
  induction text generalizing stack with
  | nil => rfl
  | cons head rest inductionHypothesis =>
      cases kept : keeps head with
      | true =>
          rw [List.filter_cons_of_pos kept, nesting_cons, nesting_cons]
          exact congrArg _ (funext fun between => inductionHypothesis between)
      | false =>
          rw [List.filter_cons_of_neg (by simp [kept]), nesting_cons,
            nest_of_notMem (passes head kept), Option.bind_some]
          exact inductionHypothesis stack

/-! ## Marks -/

def marks (text : Text) : List Char :=
  text.filter (· ∈ codeMarks)

@[simp] theorem marks_append (left right : Text) :
    marks (left ++ right) = marks left ++ marks right :=
  List.filter_append ..

theorem mem_marks {char : Char} : char ∈ marks text ↔ char ∈ text ∧ char ∈ codeMarks := by
  simp [marks]

theorem Markless.marks_eq_nil (plain : text.Markless) : text.marks = [] :=
  List.filter_eq_nil_iff.mpr fun char member => by simpa using plain char member

theorem nesting_marks (stack : List Char) (text : Text) :
    nesting stack text.marks = nesting stack text := by
  refine nesting_filter (fun char unmarked member => ?_) stack text
  have marked := (by decide : ∀ char ∈ structuralChars, char ∈ codeMarks) char member
  exact of_decide_eq_false unmarked marked

/-- The text opens these brackets beyond those that it closes, and holds no string, no comment
and no line break. -/
structure Leaves (text : Text) (opened : List Char) : Prop where
  nesting : Text.nesting [] text = some opened
  plain : ∀ char ∈ text, char ∉ ['"', '/', '\n', '\r']

instance (text : Text) (opened : List Char) : Decidable (text.Leaves opened) :=
  decidable_of_iff (Text.nesting [] text = some opened ∧ ∀ char ∈ text, char ∉ ['"', '/', '\n', '\r'])
    ⟨fun both => ⟨both.1, both.2⟩, fun leaves => ⟨leaves.nesting, leaves.plain⟩⟩

theorem Leaves.append {left right : Text} {first second : List Char} (front : left.Leaves first)
    (back : right.Leaves second) : (left ++ right).Leaves (second ++ first) where
  nesting := by
    rw [nesting_append, front.nesting, Option.bind_some]
    exact nesting_append_stack first back.nesting
  plain := List.forall_mem_append.mpr ⟨front.plain, back.plain⟩

/-- A text that leaves nothing open may stand inside another one. -/
theorem Leaves.insert {front middle back : Text} {opened : List Char}
    (outer : (front ++ back).Leaves opened) (inner : middle.Leaves []) :
    (front ++ middle ++ back).Leaves opened where
  nesting := by
    rw [List.append_assoc, Nested.nesting_insert inner.nesting]
    exact outer.nesting
  plain := by
    obtain ⟨first, last⟩ := List.forall_mem_append.mp outer.plain
    exact List.forall_mem_append.mpr ⟨List.forall_mem_append.mpr ⟨first, inner.plain⟩, last⟩

theorem leaves_iff_marks {opened : List Char} : text.Leaves opened ↔ Leaves text.marks opened := by
  have special : ∀ char ∈ ['"', '/', '\n', '\r'], char ∈ codeMarks := by decide
  constructor
  · rintro ⟨nesting, plain⟩
    exact ⟨(nesting_marks [] text).trans nesting, fun char member =>
      plain char (mem_marks.mp member).1⟩
  · rintro ⟨nesting, plain⟩
    exact ⟨(nesting_marks [] text).symm.trans nesting, fun char member mark =>
      plain char (mem_marks.mpr ⟨member, special char mark⟩) mark⟩

/-! ## Balanced text -/

theorem exists_brackets_of_closingOf? {char mark : Char} (opens : closingOf? char = some mark) :
    ∃ between, Brackets between char mark := by
  unfold closingOf? at opens
  split at opens
  · subst char
    cases opens
    exact ⟨_, .round⟩
  · split at opens
    · subst char
      cases opens
      exact ⟨_, .square⟩
    · split at opens
      · subst char
        cases opens
        exact ⟨_, .curly⟩
      · cases opens

/-- Without strings and comments, a text either keeps the stack, and is balanced if it adds nothing
to it, or is balanced up to where it closes the topmost bracket. -/
theorem balanced_or_closes (plain : ∀ char ∈ text, char ∉ ['"', '/'])
    (run : nesting stack text = some out) :
    (∃ opened, out = opened ++ stack ∧ (opened = [] → Balanced text)) ∨
      ∃ mark below inner rest, stack = mark :: below ∧ text = inner ++ mark :: rest ∧
        Balanced inner ∧ nesting below rest = some out := by
  -- behind a group the rest of the text is read, so the induction is on the length
  induction length : text.length using Nat.strongRecOn generalizing text stack with
  | ind size inductionHypothesis =>
      cases text with
      | nil =>
          cases Option.some.inj run
          exact .inl ⟨[], rfl, fun _ => .nil⟩
      | cons head rest =>
          subst length
          rw [nesting_cons] at run
          obtain ⟨between, step, later⟩ := Option.bind_eq_some_iff.mp run
          obtain ⟨headPlain, restPlain⟩ := List.forall_mem_cons.mp plain
          rcases nest_cases step with ⟨mark, opens, rfl⟩ | ⟨closes, -, rfl⟩ | ⟨other, single, rfl⟩
          · rcases inductionHypothesis rest.length (Nat.lt_succ_self _) restPlain later rfl with
              ⟨opened, exact, -⟩ | ⟨_, _, inner, behind, same, split, inside, last⟩
            · refine .inl ⟨opened ++ [mark], by simpa using exact, fun empty => ?_⟩
              simp at empty
            · cases same
              subst split
              obtain ⟨region, pair⟩ := exists_brackets_of_closingOf? opens
              have shorter : behind.length < (head :: (inner ++ mark :: behind)).length := by
                simp only [List.length_cons, List.length_append]
                omega
              have behindPlain : ∀ char ∈ behind, char ∉ ['"', '/'] := fun char member =>
                restPlain char (List.mem_append_right inner (List.mem_cons_of_mem mark member))
              rcases inductionHypothesis behind.length shorter behindPlain last rfl with
                ⟨opened, exact, balanced⟩ | ⟨outer, below, second, final, rfl, rfl, middle, end_⟩
              · exact .inl ⟨opened, exact, fun empty => .group pair inside (balanced empty)⟩
              · exact .inr ⟨outer, below, head :: (inner ++ mark :: second), final, rfl, by simp,
                  .group pair inside middle, end_⟩
          · exact .inr ⟨head, between, [], rest, rfl, rfl, .nil, later⟩
          · have free : head ∉ structuralChars := by
              unfold closingOf? at single
              simp only [closingMarks, structuralChars, List.mem_cons, List.not_mem_nil, or_false,
                not_or] at headPlain other ⊢
              grind
            rcases inductionHypothesis rest.length (Nat.lt_succ_self _) restPlain later rfl with
              ⟨opened, exact, balanced⟩ | ⟨mark, below, inner, behind, rfl, rfl, inside, last⟩
            · exact .inl ⟨opened, exact, fun empty => .char free (balanced empty)⟩
            · exact .inr ⟨mark, below, head :: inner, behind, rfl, rfl, .char free inside, last⟩

theorem Nested.balanced (nested : text.Nested) (plain : ∀ char ∈ text, char ∉ ['"', '/']) :
    Balanced text := by
  rcases balanced_or_closes plain nested with ⟨opened, exact, balanced⟩ | ⟨_, _, _, _, same, -⟩
  · exact balanced (List.append_eq_nil_iff.mp exact.symm).1
  · cases same

end Text

end StyleMacros
