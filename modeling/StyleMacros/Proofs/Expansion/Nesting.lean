import StyleMacros.Proofs.Expansion.Outcomes
import StyleMacros.Proofs.Text.Levels
import StyleMacros.Settings

/-!
# Nesting of generated code

Whatever the unit of indentation is, a fragment has the same lines at the same levels. They close
every bracket that they open, so the fragment may be put into a body without a change to what is
read behind it.
-/

set_option autoImplicit false

namespace StyleMacros

/-! ## Drafts -/

/-- A fragment before it is written: its lines with their levels. -/
structure Draft where
  role : FragmentRole
  lines : List (Nat × Text)

namespace Draft

def fragment (unit : Text) (draft : Draft) : Fragment :=
  ⟨draft.role, layout unit draft.lines⟩

/-- There are lines, they follow one another, and they close every brace. The last one is not
empty, unless it is the only one. -/
structure Whole (draft : Draft) : Prop where
  nonempty : draft.lines ≠ []
  follows : Follows 0 draft.lines 0
  ends : ∀ unit, (layout unit draft.lines).getLast? ≠ some '\n'

end Draft

/-- The fragments are whole drafts, the same in every unit of indentation. -/
def Drafted (write : Text → List Fragment) : Prop :=
  ∃ drafts : List Draft, (∀ draft ∈ drafts, draft.Whole) ∧
    ∀ unit, write unit = drafts.map (Draft.fragment unit)

namespace Drafted

variable {first second : Text → List Fragment}

theorem nil : Drafted fun _ => [] :=
  ⟨[], by simp, fun _ => rfl⟩

theorem append (left : Drafted first) (right : Drafted second) :
    Drafted fun unit => first unit ++ second unit := by
  obtain ⟨front, frontWhole, frontWrites⟩ := left
  obtain ⟨back, backWhole, backWrites⟩ := right
  refine ⟨front ++ back, List.forall_mem_append.mpr ⟨frontWhole, backWhole⟩, fun unit => ?_⟩
  rw [List.map_append, ← frontWrites, ← backWrites]

theorem cons {head : Text → Fragment} {rest : Text → List Fragment}
    (single : Drafted fun unit => [head unit]) (others : Drafted rest) :
    Drafted fun unit => head unit :: rest unit :=
  append single others

theorem map {Item : Type} {items : List Item} {write : Item → Fragment}
    (each : ∀ item ∈ items, Drafted fun _ => [write item]) : Drafted fun _ => items.map write := by
  induction items with
  | nil => exact nil
  | cons first others inductionHypothesis =>
      exact cons (each first List.mem_cons_self)
        (inductionHypothesis fun item member => each item (List.mem_cons_of_mem first member))

theorem line (role : FragmentRole) {text : Text} (single : LineText text []) :
    Drafted fun _ => [⟨role, text⟩] := by
  have written (unit : Text) : layout unit [(0, text)] = text := by
    rw [layout, List.map_singleton, Text.join_singleton, placedLine]
    split
    · rename_i empty
      exact empty.symm
    · rfl
  have ends (unit : Text) : (layout unit [(0, text)]).getLast? ≠ some '\n' := by
    intro feed
    rw [written] at feed
    exact single.leaves.plain '\n' (List.mem_of_getLast? feed) (by decide)
  have whole : Draft.Whole ⟨role, [(0, text)]⟩ :=
    ⟨List.cons_ne_nil _ _, CodeLine.follows_of_lineText 0 single 0, ends⟩
  refine ⟨[⟨role, [(0, text)]⟩], List.forall_mem_singleton.mpr whole, fun unit => ?_⟩
  rw [List.map_singleton, Draft.fragment, written]

theorem block (role : FragmentRole) {header : Text} {body : List CodeLine}
    (line : LineText (header ++ " \x7b") ['\x7d']) (inside : CodeLine.Keeps body) :
    Drafted fun unit => [⟨role, Code.text unit [.block header body]⟩] := by
  have follows := (CodeLine.keeps_block line inside 0).2
  rw [CodeLine.levelsAll, CodeLine.levelsAll, List.append_nil] at follows
  have ends (unit : Text) : (layout unit (CodeLine.levels 0 (.block header body)).1).getLast? ≠
      some '\n' := by
    rw [← Code.text_block_eq_layout, Code.text_block, List.getLast?_concat]
    decide
  have whole : Draft.Whole ⟨role, (CodeLine.levels 0 (.block header body)).1⟩ :=
    ⟨List.cons_ne_nil _ _, follows, ends⟩
  refine ⟨_, List.forall_mem_singleton.mpr whole, fun unit => ?_⟩
  exact congrArg (fun text => [Fragment.mk role text]) (Code.text_block_eq_layout header body)

end Drafted

/-! ## Names -/

section Names

variable {style : Text} (name : style.Markless)

include name

theorem marks_configurationType : Text.marks (configurationType style) = [] :=
  (name.append (by decide)).marks_eq_nil

theorem marks_defaultType : Text.marks (defaultType style) = [] :=
  (Text.Markless.append (by decide) name).marks_eq_nil

theorem marks_erasedType : Text.marks (erasedType style) = [] :=
  (Text.Markless.append (by decide) name).marks_eq_nil

theorem marks_keyType : Text.marks (keyType style) = [] :=
  (name.append (by decide)).marks_eq_nil

theorem marks_propertyOf : Text.marks (propertyOf style) = [] :=
  name.lowerFirst.marks_eq_nil

end Names

structure Slot.Markless (slot : Slot) : Prop where
  typeName : Text.marks slot.typeName = []
  property : Text.marks slot.property = []

theorem Slot.markless_of_mem {typeNames : List Text}
    (plain : ∀ typeName ∈ typeNames, typeName.Markless) :
    ∀ slot ∈ typeNames.map Slot.ofType, slot.Markless := by
  intro slot member
  obtain ⟨typeName, typeNameMember, rfl⟩ := List.mem_map.mp member
  have name := plain typeName typeNameMember
  exact ⟨name.marks_eq_nil, marks_propertyOf name⟩

/-! ## Environment -/

section Style

open CodeLine

variable {style : Text} (name : style.Markless)

include name

theorem accessorMember_drafted : Drafted fun unit => [accessorMember unit style] := by
  have getter : Keeps [.block "get" [.line ("self[" ++ keyType style ++ ".self]")]] := by
    refine keeps_block (by decide) (keeps_line (lineText_of_marks ?_ (by simp)))
    simp only [Text.marks_append, marks_keyType name]
    decide
  have setter : Keeps [.block "set" [.line ("self[" ++ keyType style ++ ".self] = newValue")]] := by
    refine keeps_block (by decide) (keeps_line (lineText_of_marks ?_ (by simp)))
    simp only [Text.marks_append, marks_keyType name]
    decide
  refine .block .member (lineText_of_marks ?_ (by simp)) (getter.cons setter)
  simp only [Text.marks_append, marks_propertyOf name, marks_erasedType name]
  decide

theorem modifierMember_drafted : Drafted fun unit => [modifierMember unit style] := by
  refine .block .member ?_ (keeps_line ?_)
  all_goals
    refine lineText_of_marks ?_ (by simp)
    simp only [Text.marks_append, marks_propertyOf name, marks_erasedType name, name.marks_eq_nil]
    decide

/-! ## Styles -/

theorem styleMembers_drafted : Drafted fun _ => styleMembers style := by
  refine .cons (.line .member (lineText_literal (by decide)))
    (.cons (.line .member ?_) (.line .member (lineText_literal (by decide))))
  refine lineText_of_marks ?_ (by simp)
  simp only [Text.marks_append, marks_configurationType name]
  decide

omit name in
theorem slotWrapper_keeps {slot : Slot} (plain : slot.Markless) : Keeps [slotWrapper slot] := by
  have stored : Keeps [.line "public var body: AnyView"] := keeps_line (lineText_literal (by decide))
  have created : Keeps [.block "public init<Content: View>(content: Content)" [
      .line "body = AnyView(content)"]] :=
    keeps_block (by decide) (keeps_line (lineText_literal (by decide)))
  refine keeps_block (lineText_of_marks ?_ (by simp)) (stored.cons (keeps_blank.cons created))
  simp only [Text.marks_append, plain.typeName]
  decide

omit name in
theorem slotProperty_keeps {slot : Slot} (plain : slot.Markless) : Keeps [slotProperty slot] := by
  refine keeps_line ?_
  refine lineText_of_marks ?_ (by simp)
  simp only [Text.marks_append, plain.typeName, plain.property]
  decide

theorem configurationPeer_drafted {slots : List Slot} (plain : ∀ slot ∈ slots, slot.Markless) :
    Drafted fun unit => [configurationPeer unit style slots] := by
  have header : LineText ("public struct " ++ configurationType style ++ " \x7b") ['\x7d'] ∧
      LineText ("public struct " ++ configurationType style ++ " \x7b\x7d") [] := by
    constructor
    all_goals
      refine lineText_of_marks ?_ (by simp)
      simp only [Text.marks_append, marks_configurationType name]
      decide
  by_cases none : slots = []
  · simp only [configurationPeer, none, if_true]
    exact .line .peer header.2
  · simp only [configurationPeer, none, if_false]
    exact .block .peer header.1
      ((keeps_map fun slot member => slotWrapper_keeps (plain slot member)).append
        (.cons keeps_blank (keeps_map fun slot member => slotProperty_keeps (plain slot member))))

omit name in
theorem slotStack_keeps {slots : List Slot} (plain : ∀ slot ∈ slots, slot.Markless) :
    Keeps [slotStack slots] := by
  unfold slotStack
  split
  · exact keeps_line (lineText_literal (by decide))
  · refine keeps_block (by decide) (keeps_map fun slot member => keeps_line ?_)
    refine lineText_of_marks ?_ (by simp)
    simp only [Text.marks_append, (plain slot member).property]
    decide

theorem defaultPeer_drafted {slots : List Slot} (plain : ∀ slot ∈ slots, slot.Markless) :
    Drafted fun unit => [defaultPeer unit style slots] := by
  have created : Keeps [.line "public init() \x7b\x7d"] := keeps_line (lineText_literal (by decide))
  have made : Keeps [.block "public func makeBody(configuration: Configuration) -> some View" [
      slotStack slots]] :=
    keeps_block (by decide) (slotStack_keeps plain)
  refine .block .peer (lineText_of_marks ?_ (by simp)) (created.cons (keeps_blank.cons made))
  simp only [Text.marks_append, marks_defaultType name, name.marks_eq_nil]
  decide

theorem erasedPeer_drafted : Drafted fun unit => [erasedPeer unit style] := by
  have closure : Keeps [.opening "_makeBody = \x7b configuration in",
      .line "AnyView(style.makeBody(configuration: configuration))", .closing ['\x7d']] :=
    keeps_opening (lineText_literal (by decide))
      (keeps_line (lineText_literal (by decide)))
  have stored : Keeps [.line "private var _makeBody: (Configuration) -> AnyView"] :=
    keeps_line (lineText_literal (by decide))
  have header : LineText ("init(style: some " ++ style ++ ")" ++ " \x7b") ['\x7d'] := by
    refine lineText_of_marks ?_ (by simp)
    simp only [Text.marks_append, name.marks_eq_nil]
    decide
  have created := keeps_block header closure
  have made : Keeps [.block "func makeBody(configuration: Configuration) -> some View" [
      .line "_makeBody(configuration)"]] :=
    keeps_block (by decide) (keeps_line (lineText_literal (by decide)))
  have body := stored.cons (keeps_blank.cons (created.cons (keeps_blank.cons made)))
  refine .block .peer (lineText_of_marks ?_ (by simp)) body
  simp only [Text.marks_append, marks_erasedType name, name.marks_eq_nil]
  decide

theorem keyPeer_drafted : Drafted fun unit => [keyPeer unit style] := by
  refine .block .peer ?_ (keeps_line ?_)
  all_goals
    refine lineText_of_marks ?_ (by simp)
    simp only [Text.marks_append, marks_keyType name, marks_erasedType name, marks_defaultType name]
    decide

theorem styleFragments_drafted {subViews : List Text}
    (plain : ∀ subView ∈ subViews, subView.Markless) :
    Drafted fun unit => styleFragments unit style subViews := by
  have slots := Slot.markless_of_mem plain
  exact (styleMembers_drafted name).append (.cons (configurationPeer_drafted name slots)
    (.cons (defaultPeer_drafted name slots)
      (.cons (erasedPeer_drafted name) (keyPeer_drafted name))))

end Style

/-! ## Components -/

section Component

open CodeLine

theorem lineText_lead (access : Option AccessLevel) {text : Text} {opened : List Char}
    (line : LineText text opened) : LineText (AccessLevel.lead access ++ text) opened where
  leaves := by
    rw [Text.leaves_iff_marks, Text.marks_append, (lead_markless access).marks_eq_nil]
    exact Text.leaves_iff_marks.mp line.leaves
  solid := by
    cases access with
    | none => exact line.solid
    | some level => cases level <;> nofun

theorem slotClosure_drafted (access : Option AccessLevel) {slot : Slot} (plain : slot.Markless) :
    Drafted fun _ => [slotClosure (AccessLevel.lead access) slot] := by
  have line : LineText ("let " ++ (slot.property ++ (": () -> " ++ slot.typeName))) [] := by
    refine lineText_of_marks ?_ (by simp)
    simp only [Text.marks_append, plain.property, plain.typeName]
    decide
  have whole := Drafted.line .member (lineText_lead access line)
  simp only [slotClosure, List.append_assoc]
  exact whole

theorem slotArguments_leaves {slots : List Slot} (plain : ∀ slot ∈ slots, slot.Markless) :
    Text.Leaves (Text.join ", " (slots.map slotArgument)) [] := by
  refine @Text.join_induction (fun text => text.Leaves []) _ _ (by decide)
    (fun _ _ => Text.Leaves.append) (by decide) fun piece member => ?_
  obtain ⟨slot, slotMember, rfl⟩ := List.mem_map.mp member
  rw [Text.leaves_iff_marks]
  simp only [slotArgument, Text.marks_append, (plain slot slotMember).property,
    (plain slot slotMember).typeName]
  decide

theorem bodyMember_drafted (access : Option AccessLevel) {slots : List Slot}
    (plain : ∀ slot ∈ slots, slot.Markless) : Drafted fun unit => [.member unit [
      .block (AccessLevel.lead access ++ "var body: some View") [
        .line ("style.makeBody(configuration: Configuration(" ++
          Text.join ", " (slots.map slotArgument) ++ "))")]]] := by
  refine .block .member ?_ (keeps_line ⟨.insert (by decide) (slotArguments_leaves plain), by simp⟩)
  rw [List.append_assoc]
  exact lineText_lead access (by decide)

theorem componentFragments_drafted {component : Declaration} (name : component.name.Markless)
    (parameters : ∀ parameter ∈ component.genericParameters, parameter.Markless) :
    Drafted fun unit => componentFragments unit component := by
  have slots := Slot.markless_of_mem parameters
  have property : Text.marks (componentStyleProperty component.name) = [] :=
    (name.lowerFirst.append (by decide)).marks_eq_nil
  have configuration : Text.marks (configurationType (componentStyle component.name)) = [] :=
    marks_configurationType (name.append (by decide))
  have access := (lead_markless component.access).marks_eq_nil
  refine .append (.append (.cons (.line .member ?_) (.line .member ?_))
    (.map fun slot member => slotClosure_drafted component.access (slots slot member)))
    (bodyMember_drafted component.access slots)
  · refine lineText_of_marks ?_ (by simp)
    simp only [Text.marks_append, property, access]
    decide
  · rw [List.append_assoc]
    refine lineText_lead component.access (lineText_of_marks ?_ (by simp))
    simp only [Text.marks_append, configuration]
    decide

end Component

/-! ## Invocations and sites -/

theorem Use.fragments_drafted {declaration : Declaration} (name : declaration.name.Markless)
    (parameters : ∀ parameter ∈ declaration.genericParameters, parameter.Markless) {use : Use}
    (named : use.Named) : Drafted fun unit => use.fragments unit declaration := by
  cases use with
  | style subViews =>
      exact styleFragments_drafted name fun subView inside =>
        Text.markless_of_isIdentifier (named subView inside)
  | registerStyle style => exact accessorMember_drafted (Text.markless_of_isIdentifier named)
  | convenienceModifier style => exact modifierMember_drafted (Text.markless_of_isIdentifier named)
  | component => exact componentFragments_drafted name parameters

theorem outcomes_drafted (invocations : List Invocation) {declaration : Declaration}
    (name : declaration.name.Markless)
    (parameters : ∀ parameter ∈ declaration.genericParameters, parameter.Markless)
    (targets : Targets) (source : SourceText) : Drafted fun unit =>
      (SiteExpansion.outcomes ⟨declaration, invocations⟩ ⟨targets, unit⟩ source).1 := by
  induction invocations with
  | nil => exact .nil
  | cons invocation later inductionHypothesis =>
      cases used : invocation.use declaration targets with
      | error fault =>
          have refused (unit : Text) : invocation.expand declaration ⟨targets, unit⟩ source =
              .error (UseFault.diagnostic fault invocation.name source "validate") := by
            simp only [Invocation.expand, used]
          simpa only [SiteExpansion.outcomes_cons_of_error (refused _)] using inductionHypothesis
      | ok use =>
          have fits := Invocation.fits_of_use_eq_ok used
          have expanded (unit : Text) : invocation.expand declaration ⟨targets, unit⟩ source =
              .ok (use.fragments unit declaration) := fits.expand_eq_ok source
          simpa only [SiteExpansion.outcomes_cons_of_ok (expanded _)] using
            (Use.fragments_drafted name parameters fits.named).append inductionHypothesis

theorem Site.fragments_drafted {text : Text} {site : Site} (member : site ∈ readSites text)
    (targets : Targets) (source : SourceText) :
    Drafted fun unit => (site.expand ⟨targets, unit⟩ source).fragments := by
  cases annotated : site.annotated with
  | error fault =>
      simp only [Site.expand, annotated]
      exact .nil
  | ok found =>
      obtain ⟨written, target, declared⟩ := Site.annotated_success_yields_declaration annotated
      obtain ⟨⟨path, pathText⟩, parameters⟩ := readSites_named member target
      have name : found.declaration.name.Markless := by
        have same : written.name = found.declaration.name := congrArg Declaration.name declared.symm
        rw [← same, ← pathText]
        exact path.text_markless
      simp only [Site.expand, annotated]
      refine outcomes_drafted found.invocations name ?_ targets source
      rw [declared]
      intro parameter parameterMember
      obtain ⟨kept, keptMember, rfl⟩ := List.mem_map.mp parameterMember
      exact Text.markless_of_isIdentifier (parameters kept keptMember)

/-! ## Laid-out fragments -/

/-- The fragment closes every bracket that it opens and is indented by its braces, `width` blanks
each. Put anywhere, with blanks in front of its lines, it changes nothing in what is open behind
it, and a body that it stands in ends where it ended without it. -/
structure Fragment.WellLaid (width : Nat) (fragment : Fragment) : Prop where
  nested : fragment.text.Nested
  indented : fragment.text.IndentedByDepth width
  neutral : ∀ lead : Text, lead.isBlank = true → ∀ (stack : List Char) (front back : Text),
    Text.nesting stack (front ++ (fragment.text.indentLines lead ++ back)) =
      Text.nesting stack (front ++ back)
  passed : ∀ lead : Text, lead.isBlank = true → ∀ front back : Text, Balanced front →
    back.head? ≠ some '"' →
      Region.body.finish? (front ++ (fragment.text.indentLines lead ++ back)) =
        Region.body.finish? (front ++ back)

def Fragment.unindented (fragment : Fragment) : Fragment :=
  ⟨fragment.role, fragment.text.unindented⟩

/-- A text without strings and comments that nests stays so in every indentation. -/
theorem Text.Nested.indentLines {text lead : Text} (nested : text.Nested)
    (plain : ∀ char ∈ text, char ∉ ['"', '/']) (blank : lead.isBlank = true) :
    (text.indentLines lead).Nested ∧ ∀ char ∈ text.indentLines lead, char ∉ ['"', '/'] := by
  have bare : lead.filter (· ∈ structuralChars) = [] := by
    refine List.filter_eq_nil_iff.mpr fun char member => ?_
    have solid : ∀ mark ∈ structuralChars, isWhitespace mark = false := by decide
    have white : isWhitespace char = true := List.all_eq_true.mp blank char member
    intro mark
    rw [solid char (of_decide_eq_true mark)] at white
    cases white
  have same := Text.filter_indentLines (by decide) (by decide)
    bare text
  constructor
  · have passes (char : Char) (dropped : decide (char ∈ structuralChars) = false) :
        char ∉ structuralChars := of_decide_eq_false dropped
    rw [Text.Nested, ← Text.nesting_filter passes, same, Text.nesting_filter passes]
    exact nested
  · intro char member mark
    have structural := (by decide : ∀ char ∈ ['"', '/'], char ∈ structuralChars) char mark
    have kept : char ∈ text.filter (· ∈ structuralChars) := by
      rw [← same]
      exact List.mem_filter.mpr ⟨member, decide_eq_true structural⟩
    exact plain char (List.mem_filter.mp kept).1 mark

/-- A body ends where it ended without such a text. -/
theorem Text.Nested.finish?_body {text front back : Text} (nested : text.Nested)
    (plain : ∀ char ∈ text, char ∉ ['"', '/']) (balanced : Balanced front)
    (apart : back.head? ≠ some '"') :
    Region.body.finish? (front ++ (text ++ back)) = Region.body.finish? (front ++ back) := by
  have nests : Region.body.Nests := trivial
  have quoteless : (text ++ back).head? ≠ some '"' := by
    cases text with
    | nil => exact apart
    | cons head rest =>
        intro quote
        exact plain head List.mem_cons_self (Option.some.inj quote ▸ List.mem_cons_self)
  have passed : Region.body.afterContent (front ++ (text ++ back)) =
      Region.body.afterContent (front ++ back) :=
    calc Region.body.afterContent (front ++ (text ++ back))
        = Region.body.afterContent (text ++ back) := balanced.afterContent nests quoteless
      _ = Region.body.afterContent back := (nested.balanced plain).afterContent nests apart
      _ = Region.body.afterContent (front ++ back) := (balanced.afterContent nests apart).symm
  rw [Region.finish?, passed, ← Region.finish?]

theorem Draft.Whole.plain {draft : Draft} (whole : draft.Whole) (width : Nat) :
    ∀ char ∈ (draft.fragment (indentUnit width)).text, char ∉ ['"', '/', '\r'] := by
  refine @Text.join_induction (fun text => ∀ char ∈ text, char ∉ ['"', '/', '\r']) _ _ (by simp)
    (fun _ _ left right => List.forall_mem_append.mpr ⟨left, right⟩) (by decide) ?_
  intro line member char inside mark
  have among : ['"', '/', '\r'] ⊆ ['"', '/', '\n', '\r'] := by decide
  exact whole.follows.plain_of_mem_layout (indentUnit_spaces width) line member char inside
    (among mark)

theorem Draft.Whole.wellLaid {draft : Draft} (whole : draft.Whole) (width : Nat) :
    (draft.fragment (indentUnit width)).WellLaid width := by
  have spaces := indentUnit_spaces width
  have nested := whole.follows.nested spaces
  have plain : ∀ char ∈ layout (indentUnit width) draft.lines, char ∉ ['"', '/'] :=
    fun char inside mark => whole.plain width char inside (List.mem_append_left ['\r'] mark)
  refine ⟨nested, whole.follows.indentedByDepth whole.nonempty width, ?_, ?_⟩
  · intro lead blank stack front back
    exact (nested.indentLines plain blank).1.nesting_insert stack front back
  · intro lead blank front back balanced apart
    obtain ⟨kept, bare⟩ := nested.indentLines plain blank
    exact kept.finish?_body bare balanced apart

theorem Drafted.wellLaid {write : Text → List Fragment} (drafted : Drafted write) (width : Nat) :
    (∀ fragment ∈ write (indentUnit width), fragment.WellLaid width) ∧
      ∀ other : Nat, (write (indentUnit other)).map Fragment.unindented =
        (write (indentUnit width)).map Fragment.unindented := by
  obtain ⟨drafts, whole, writes⟩ := drafted
  constructor
  · intro fragment member
    rw [writes] at member
    obtain ⟨draft, draftMember, rfl⟩ := List.mem_map.mp member
    exact (whole draft draftMember).wellLaid width
  · intro other
    rw [writes, writes, List.map_map, List.map_map]
    refine List.map_congr_left fun draft member => ?_
    have follows := (whole draft member).follows
    have nonempty := (whole draft member).nonempty
    exact congrArg (Fragment.mk draft.role)
      ((follows.unindented_layout (indentUnit_spaces other) nonempty).trans
        (follows.unindented_layout (indentUnit_spaces width) nonempty).symm)

theorem FileExpansion.fragments_feedless (source : SourceText) (settings : Settings) :
    ∀ site ∈ (FileExpansion.ofSource source settings.expansion).sites,
      ∀ fragment ∈ site.fragments,
        '\r' ∉ fragment.text ∧ fragment.text.getLast? ≠ some '\n' := by
  intro site member fragment inside
  obtain ⟨read, readMember, rfl⟩ := List.mem_map.mp member
  obtain ⟨drafts, whole, writes⟩ := Site.fragments_drafted readMember settings.targets source
  have written := writes (indentUnit settings.indentWidth)
  change fragment ∈ (read.expand settings.expansion source).fragments at inside
  rw [show (read.expand settings.expansion source).fragments = _ from written] at inside
  obtain ⟨draft, draftMember, rfl⟩ := List.mem_map.mp inside
  exact ⟨fun feed => (whole draft draftMember).plain settings.indentWidth '\r' feed (by decide),
    (whole draft draftMember).ends _⟩

def FileExpansion.unindented (expansion : FileExpansion) : List (List Fragment) :=
  expansion.sites.map fun site => site.fragments.map Fragment.unindented

/-- Generated code nests and is indented by its braces, and the width of an indentation is all that
it takes from the width that is set. -/
theorem FileExpansion.fragments_wellLaid (source : SourceText) (settings : Settings) :
    (∀ site ∈ (FileExpansion.ofSource source settings.expansion).sites,
      ∀ fragment ∈ site.fragments, fragment.WellLaid settings.indentWidth) ∧
    ∀ width : Nat, (FileExpansion.ofSource source
        (Settings.expansion { settings with indentWidth := width })).unindented =
      (FileExpansion.ofSource source settings.expansion).unindented := by
  constructor
  · intro site member
    obtain ⟨read, readMember, rfl⟩ := List.mem_map.mp member
    exact ((Site.fragments_drafted readMember settings.targets source).wellLaid _).1
  · intro width
    simp only [FileExpansion.unindented, FileExpansion.ofSource, List.map_map]
    refine List.map_congr_left fun read readMember => ?_
    exact ((Site.fragments_drafted readMember settings.targets source).wellLaid _).2 width

end StyleMacros
