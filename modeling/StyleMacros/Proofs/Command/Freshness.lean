import StyleMacros.Proofs.Command.Steps
import StyleMacros.Proofs.Files.Plans
import StyleMacros.Proofs.Files.Sorting

/-!
# Generated files are fresh

After `generate` has gone well, `check` goes well too, if the outputs do not get in each other's
way. What `generate` writes has no name of a source, so the same sources are found again; a
source keeps its content, or has become a text without annotations; and an output keeps what it
was rendered to, since another one at its place holds the same.
-/

set_option autoImplicit false

namespace StyleMacros

variable {settings : Settings} {roots : List Path} {outDir : Option Path}
  {workspace before after : Workspace} {plan : List PlannedOutput} {planned written : PlannedOutput}
  {text content : Text}

/-! ## Plans -/

theorem Workspace.StandForAll.exists_root {sources : List Path}
    (all : workspace.StandForAll settings roots sources) {source : Path} (member : source ∈ sources) :
    ∃ root ∈ roots, ∃ part, workspace.StandsFor settings root part ∧ source ∈ part := by
  induction all with
  | nil => cases member
  | cons first others inductionHypothesis =>
      rcases List.mem_append.mp member with here | behind
      · exact ⟨_, List.mem_cons_self, _, first, here⟩
      · obtain ⟨root, rootMember, found⟩ := inductionHypothesis behind
        exact ⟨root, List.mem_cons_of_mem _ rootMember, found⟩

/-- A planned source is a root that is a file, or has been listed as a source below a root. -/
theorem Workspace.HasPlan.source_cases (has : workspace.HasPlan settings roots outDir plan)
    (proper : workspace.tree.Proper) (member : planned ∈ plan) :
    workspace.isFile planned.source ∧
      (planned.source ∈ roots ∨ settings.isSource planned.source) := by
  obtain ⟨sources, all, success⟩ := has
  obtain ⟨root, rootMember, part, stands, inside⟩ :=
    all.exists_root (Path.mem_of_mem_sorted (mem_planBehind success member).1)
  rcases stands with ⟨file, rfl⟩ | ⟨-, directory, files, listed, rfl⟩
  · cases List.mem_singleton.mp inside
    exact ⟨file, .inl rootMember⟩
  · obtain ⟨below, source⟩ := List.mem_filter.mp inside
    exact ⟨isFile_of_mem_filesBelow proper directory listed below, .inr source⟩

/-! ## Finding the same sources again -/

/-- A name that a file can have without being a source. -/
def Settings.Spares (settings : Settings) (name : Text) : Prop :=
  Path.IsName name ∧ settings.isSourceName name = false

theorem Settings.isSource_join (holder : Path) {name : Text} (spared : settings.Spares name) :
    settings.isSource (holder.join name) = false := by
  have last : (holder.join name).lastName = name := Path.lastName_join spared.1
  have named : (holder.join name).fileName? = some name := by
    rw [Path.fileName?_eq_lastName (last.symm ▸ spared.1), last]
  rw [isSource_eq named, spared.2]

theorem Workspace.StandsFor.grows {root : Path} {sources : List Path}
    (stands : before.StandsFor settings root sources) (grown : before.Grows settings.Spares after) :
    after.StandsFor settings root sources := by
  rcases stands with ⟨file, rfl⟩ | ⟨-, directory, files, listed, rfl⟩
  · exact .inl ⟨grown.isFile file, rfl⟩
  · obtain ⟨still, other⟩ := grown.isDirectory directory
    obtain ⟨added, relisted, spared⟩ := grown.filesBelow listed
    have none : added.filter settings.isSource = [] := by
      refine List.filter_eq_nil_iff.mpr fun file member => ?_
      obtain ⟨holder, name, rfl, kind⟩ := spared file member
      rw [Settings.isSource_join holder kind]
      exact Bool.false_ne_true
    exact .inr ⟨other, still, _, relisted, by rw [List.filter_append, none, List.append_nil]⟩

theorem Workspace.StandForAll.grows {sources : List Path}
    (all : before.StandForAll settings roots sources) (grown : before.Grows settings.Spares after) :
    after.StandForAll settings roots sources := by
  induction all with
  | nil => exact .nil
  | cons first _ inductionHypothesis => exact .cons (first.grows grown) inductionHypothesis

theorem Workspace.HasPlan.grows (has : before.HasPlan settings roots outDir plan)
    (grown : before.Grows settings.Spares after) : after.HasPlan settings roots outDir plan := by
  obtain ⟨sources, all, success⟩ := has
  exact ⟨sources, all.grows grown, success⟩

theorem Workspace.isFresh_of_quiet (read : workspace.readText planned.source = .ok text)
    (none : readSites text = []) : workspace.IsFresh settings planned := by
  refine ⟨text, read, ?_, fun other rendering => ?_⟩
  · rw [Settings.generatedFor_of_readSites_eq_nil none]
  · rw [Settings.generatedFor_of_readSites_eq_nil none] at rendering
    cases rendering

/-! ## What may be written where -/

def Workspace.Renders (settings : Settings) (workspace : Workspace) (planned : PlannedOutput)
    (text : Text) : Prop :=
  ∃ content, workspace.readText planned.source = .ok content ∧
    (settings.generatedFor planned.source content).1 = some text

theorem Workspace.Renders.rendering (renders : workspace.Renders settings planned text)
    (read : workspace.readText planned.source = .ok content) :
    (settings.generatedFor planned.source content).1 = some text := by
  obtain ⟨present, found, rendering⟩ := renders
  rw [read] at found
  cases found
  exact rendering

/-- The outputs of a plan do not get in each other's way. -/
structure Workspace.Compatible (settings : Settings) (workspace : Workspace) (roots : List Path)
    (plan : List PlannedOutput) : Prop where
  /-- What is written over a root that is a file has no annotations. -/
  overRoots : ∀ planned ∈ plan, ∀ text, workspace.Renders settings planned text →
    ∀ root ∈ roots, workspace.isFile root →
      workspace.placeOf root = workspace.placeOf planned.output → readSites text = []
  /-- Outputs at one place are rendered to the same text. -/
  together : ∀ first ∈ plan, ∀ second ∈ plan, ∀ text other,
    workspace.Renders settings first text → workspace.Renders settings second other →
      workspace.placeOf first.output = workspace.placeOf second.output → text = other

theorem Workspace.HasPlan.unique {other : List PlannedOutput}
    (has : workspace.HasPlan settings roots outDir plan)
    (too : workspace.HasPlan settings roots outDir other) : plan = other := by
  let state : HostState := { workspace := workspace }
  have first : (planUnder settings roots outDir).Succeeds state plan state :=
    succeeds_planUnder_iff.mpr ⟨has, rfl⟩
  have second : (planUnder settings roots outDir).Succeeds state other state :=
    succeeds_planUnder_iff.mpr ⟨too, rfl⟩
  exact Except.ok.inj (Prod.mk.inj (first.symm.trans second)).1

/-- What holds of a workspace while a plan is carried out, seen from the beginning. -/
structure Workspace.Underway (settings : Settings) (plan : List PlannedOutput)
    (start now : Workspace) : Prop where
  grows : start.Grows settings.Spares now
  /-- A source keeps its content, or has become a text without annotations. -/
  sources : ∀ planned ∈ plan, now.node? planned.source = start.node? planned.source ∨
    ∃ text, now.node? planned.source = some (.file (.text text)) ∧ readSites text = []

/-! ## One output after the other -/

/-- The circumstances of a call of `generate`: its settings are accepted, the suffix of outputs
is part of a name, and the outputs are compatible. -/
structure Workspace.Suits (settings : Settings) (start : Workspace) (roots : List Path)
    (outDir : Option Path) (plan : List PlannedOutput) : Prop where
  accepted : settings.fault? = none
  flat : '/' ∉ settings.outputSuffix
  proper : start.tree.Proper
  planned : start.HasPlan settings roots outDir plan
  compatible : start.Compatible settings roots plan

section Steps

variable {start now next : Workspace} (suits : start.Suits settings roots outDir plan)

namespace Workspace

include suits in
theorem Suits.spares (member : written ∈ plan) (delivered : now.Delivered written.output text next) :
    settings.Spares written.output.lastName := by
  obtain ⟨sources, -, success⟩ := suits.planned
  refine ⟨delivered.place.1, ?_⟩
  rw [(mem_planBehind success member).2]
  exact Settings.isSourceName_lastName_outputPath (Settings.outputSuffix_ne_nil suits.accepted)
    suits.flat _ _

/-- What a source is rendered to now, it was rendered to at the start, if it has annotations. -/
theorem Underway.renders (underway : Underway settings plan start now) (member : planned ∈ plan)
    (renders : now.Renders settings planned text) : start.Renders settings planned text := by
  obtain ⟨content, read, rendering⟩ := renders
  refine ⟨content, ?_, rendering⟩
  rcases underway.sources planned member with same | ⟨quiet, found, none⟩
  · rw [readText_eq_ok_iff, ← same]
    exact readText_eq_ok_iff.mp read
  · -- A text without annotations would be rendered to nothing.
    have same : content = quiet := by
      have both := (readText_eq_ok_iff.mp read).symm.trans found
      cases both
      rfl
    rw [same, Settings.generatedFor_of_readSites_eq_nil none] at rendering
    cases rendering

include suits in
/-- A source that an output is put over is a root, so what is put there has no annotations. -/
theorem Suits.quiet_of_same_place (underway : Underway settings plan start now)
    (writtenMember : written ∈ plan) (renders : now.Renders settings written text)
    (delivered : now.Delivered written.output text next) (member : planned ∈ plan)
    (same : now.placeOf planned.source = now.placeOf written.output) : readSites text = [] := by
  obtain ⟨file, kind⟩ := suits.planned.source_cases suits.proper member
  rcases kind with root | source
  · rw [underway.grows.placeOf, underway.grows.placeOf] at same
    exact suits.compatible.overRoots written writtenMember text
      (underway.renders writtenMember renders) _ root file same
  · obtain ⟨name, found, sourceName⟩ := Settings.exists_fileName_of_isSource source
    obtain ⟨holder, place⟩ := placeOf_eq_concat now found
    obtain ⟨-, other, otherPlace⟩ := delivered.place
    rw [place, otherPlace] at same
    have names : name = written.output.lastName := List.singleton_inj.mp (List.append_inj' same rfl).2
    rw [names, (suits.spares writtenMember delivered).2] at sourceName
    cases sourceName

include suits in
theorem Suits.underway (underway : Underway settings plan start now)
    (writtenMember : written ∈ plan) (renders : now.Renders settings written text)
    (delivered : now.Delivered written.output text next) : Underway settings plan start next := by
  have spares := suits.spares writtenMember delivered
  refine ⟨underway.grows.trans (delivered.grows.mono fun name same => same ▸ spares), ?_⟩
  intro planned member
  obtain ⟨file, -⟩ := suits.planned.source_cases suits.proper member
  obtain ⟨content, found⟩ := isFile_iff.mp (underway.grows.isFile file)
  rcases delivered.node?_cases found with ⟨-, kept⟩ | ⟨same, replaced⟩
  · rw [kept, ← found]
    exact underway.sources planned member
  · exact .inr ⟨text, replaced,
      suits.quiet_of_same_place underway writtenMember renders delivered member same⟩

include suits in
/-- Writing an output leaves the others fresh. -/
theorem Suits.isFresh (underway : Underway settings plan start now)
    (writtenMember : written ∈ plan) (renders : now.Renders settings written text)
    (delivered : now.Delivered written.output text next) (member : planned ∈ plan)
    (fresh : now.IsFresh settings planned) : next.IsFresh settings planned := by
  obtain ⟨content, read, well, holds⟩ := fresh
  rcases delivered.node?_cases (readText_eq_ok_iff.mp read) with ⟨-, kept⟩ | ⟨same, replaced⟩
  · refine ⟨content, readText_eq_ok_iff.mpr kept, well, fun own rendering => ?_⟩
    have present := holds own rendering
    rcases delivered.node?_cases (readText_eq_ok_iff.mp present) with ⟨-, kept⟩ | ⟨same, replaced⟩
    · exact readText_eq_ok_iff.mpr kept
    · rw [underway.grows.placeOf, underway.grows.placeOf] at same
      have equal : own = text := suits.compatible.together planned member written writtenMember _ _
        (underway.renders member ⟨content, read, rendering⟩)
        (underway.renders writtenMember renders) same
      rw [equal]
      exact readText_eq_ok_iff.mpr replaced
  · have none := suits.quiet_of_same_place underway writtenMember renders delivered member same
    exact isFresh_of_quiet (readText_eq_ok_iff.mpr replaced) none

include suits in
theorem Suits.after_generateOne {coloured : Bool} {before after : HostState} {rest : List PlannedOutput}
    (within : ∀ planned ∈ written :: rest, planned ∈ plan)
    (underway : Underway settings plan start before.workspace)
    (fresh : ∀ planned ∈ plan, planned ∈ written :: rest ∨ before.workspace.IsFresh settings planned)
    (done : (generateOne settings coloured written).Succeeds before true after) :
    Underway settings plan start after.workspace ∧
      ∀ planned ∈ plan, planned ∈ rest ∨ after.workspace.IsFresh settings planned := by
  have writtenMember := within written List.mem_cons_self
  obtain ⟨content, read, well, ⟨nothing, same⟩ | ⟨text, rendering, delivered⟩⟩ :=
    effect_of_generateOne done
  · have writtenFresh : before.workspace.IsFresh settings written := by
      refine ⟨content, read, well, fun text rendering => ?_⟩
      rw [nothing] at rendering
      cases rendering
    rw [same]
    refine ⟨underway, fun planned member => ?_⟩
    rcases fresh planned member with pending | fresh
    · exact (List.mem_cons.mp pending).elim (fun same => .inr (same ▸ writtenFresh)) .inl
    · exact .inr fresh
  · have renders : before.workspace.Renders settings written text := ⟨content, read, rendering⟩
    have writtenFresh : after.workspace.IsFresh settings written := by
      rcases delivered.node?_cases (readText_eq_ok_iff.mp read) with ⟨-, kept⟩ | ⟨same, replaced⟩
      · refine ⟨content, readText_eq_ok_iff.mpr kept, well, fun other rendered => ?_⟩
        rw [rendering] at rendered
        cases rendered
        exact readText_eq_ok_iff.mpr delivered.present
      · exact isFresh_of_quiet (readText_eq_ok_iff.mpr replaced)
          (suits.quiet_of_same_place underway writtenMember renders delivered writtenMember same)
    refine ⟨suits.underway underway writtenMember renders delivered, fun planned member => ?_⟩
    rcases fresh planned member with pending | fresh
    · exact (List.mem_cons.mp pending).elim (fun same => .inr (same ▸ writtenFresh)) .inl
    · exact .inr (suits.isFresh underway writtenMember renders delivered member fresh)

include suits in
/-- Once a plan has been carried out, all that it names is fresh. -/
theorem Suits.after_generateAll {coloured : Bool} {before after : HostState}
    (same : before.workspace = start)
    (done : (Action.allWell (generateOne settings coloured) plan).Succeeds before true after) :
    Underway settings plan start after.workspace ∧
      ∀ planned ∈ plan, after.workspace.IsFresh settings planned := by
  have every := allWell_induction
    (fun rest state => (∀ planned ∈ rest, planned ∈ plan) ∧
      Underway settings plan start state.workspace ∧
      ∀ planned ∈ plan, planned ∈ rest ∨ state.workspace.IsFresh settings planned)
    (fun written rest before middle holds done => by
      obtain ⟨within, underway, fresh⟩ := holds
      exact ⟨fun planned member => within planned (List.mem_cons_of_mem written member),
        suits.after_generateOne within underway fresh done⟩)
    ⟨fun _ member => member, ⟨same ▸ .refl _, fun planned _ => .inl (by rw [same])⟩,
      fun planned member => .inl member⟩ done
  exact ⟨every.2.1, fun planned member => (every.2.2 planned member).resolve_left List.not_mem_nil⟩

end Workspace

end Steps

theorem succeeds_checkAll {before : HostState} (coloured : Bool)
    (fresh : ∀ planned ∈ plan, before.workspace.IsFresh settings planned) :
    ∃ after, (Action.allWell (checkOne settings coloured) plan).Succeeds before true after ∧
      after.workspace = before.workspace := by
  refine succeeds_allWell_of_quiet (fun planned member state same => ?_) rfl
  rw [← same]
  exact succeeds_checkOne_of_isFresh (same ▸ fresh planned member) coloured

/-! ## The commands -/

section Commands

variable {coloured later : Bool} {before generated : HostState}

theorem succeeds_generate_iff {result : Bool} {after : HostState} :
    ((Command.generate roots outDir).perform settings coloured).Succeeds before result after ↔
      ∃ plan, before.workspace.HasPlan settings roots outDir plan ∧
        (Action.allWell (generateOne settings coloured) plan).Succeeds before result after := by
  rw [Command.perform, generateFiles, succeeds_bind_iff]
  simp only [succeeds_planUnder_iff]
  exact ⟨fun ⟨plan, _, ⟨has, same⟩, all⟩ => ⟨plan, has, same ▸ all⟩,
    fun ⟨plan, has, all⟩ => ⟨plan, before, ⟨has, rfl⟩, all⟩⟩

theorem succeeds_check_iff {result : Bool} {after : HostState} :
    ((Command.check roots outDir).perform settings coloured).Succeeds before result after ↔
      ∃ plan, before.workspace.HasPlan settings roots outDir plan ∧
        (Action.allWell (checkOne settings coloured) plan).Succeeds before result after := by
  rw [Command.perform, checkFiles, succeeds_bind_iff]
  simp only [succeeds_planUnder_iff]
  exact ⟨fun ⟨plan, _, ⟨has, same⟩, all⟩ => ⟨plan, has, same ▸ all⟩,
    fun ⟨plan, has, all⟩ => ⟨plan, before, ⟨has, rfl⟩, all⟩⟩

/-- After `generate` has gone well, `check` goes well, and all it plans is fresh: for accepted
settings whose output suffix is part of a name, if what is written over a root that is a file has
no annotations, and outputs at one place are rendered to the same text. -/
theorem check_succeeds_after_generate (accepted : settings.fault? = none)
    (flat : '/' ∉ settings.outputSuffix) (proper : before.workspace.tree.Proper)
    (compatible : ∀ plan, before.workspace.HasPlan settings roots outDir plan →
      before.workspace.Compatible settings roots plan)
    (done : ((Command.generate roots outDir).perform settings coloured).Succeeds before true
      generated) :
    (∃ checked, ((Command.check roots outDir).perform settings later).Succeeds generated true
        checked ∧ checked.workspace = generated.workspace) ∧
      ∃ plan, generated.workspace.HasPlan settings roots outDir plan ∧
        ∀ planned ∈ plan, generated.workspace.IsFresh settings planned := by
  obtain ⟨plan, has, done⟩ := succeeds_generate_iff.mp done
  have suits : before.workspace.Suits settings roots outDir plan :=
    ⟨accepted, flat, proper, has, compatible plan has⟩
  obtain ⟨underway, fresh⟩ := suits.after_generateAll rfl done
  have again := has.grows underway.grows
  obtain ⟨checked, all, same⟩ := succeeds_checkAll later fresh
  exact ⟨⟨checked, succeeds_check_iff.mpr ⟨plan, again, all⟩, same⟩, plan, again, fresh⟩

end Commands

/-! ## Two sources with one stem -/

def FileTree.ofTwoFiles (first second : Text) (content other : Text) (different : first ≠ second) :
    FileTree where
  nodes := [([], .directory), ([first], .file (.text content)), ([second], .file (.text other))]
  distinct := by simp [different]
  root := List.mem_cons_self
  closed := by
    intro location name node member
    have top : location = [] := by
      simp only [List.mem_cons, Prod.mk.injEq, List.append_eq_nil_iff, List.not_mem_nil, or_false,
        List.append_eq_singleton_iff] at member
      rcases member with member | member | member <;> simp_all
    rw [top]
    exact List.mem_cons_self

def Action.answers (answer : Bool) (action : Action (StateM HostState) Bool) (before : HostState) :
    Bool :=
  match (action.ending before).1 with
  | .ok given => given == answer
  | .error _ => false

theorem succeeds_of_answers {answer : Bool} {action : Action (StateM HostState) Bool}
    {before : HostState} (answered : action.answers answer before = true) :
    action.Succeeds before answer (action.ending before).2 := by
  unfold Action.answers at answered
  split at answered
  · rename_i given same
    exact Prod.ext (same.trans (congrArg _ (beq_iff_eq.mp answered))) rfl
  · cases answered

theorem hasPlan_of_two_files {first second : Path} (file : workspace.isFile first = true)
    (other : workspace.isFile second = true) (ordered : second.lt first = false)
    (different : first.same second = false)
    (planned : planOutputs settings outDir [first, second] = .ok plan) :
    workspace.HasPlan settings [first, second] outDir plan := by
  refine ⟨[first, second], .cons (.inl ⟨file, rfl⟩) (.cons (.inl ⟨other, rfl⟩) .nil), ?_⟩
  rwa [Path.sorted_pair ordered different]

def twoCards : HostState :=
  ⟨⟨.ofTwoFiles "Card.swift" "Card.txt" "@UIComponent struct A {}\n" "@UIComponent struct B {}\n"
    (by decide), []⟩, [], []⟩

def twoCardsPlan : List PlannedOutput :=
  [⟨⟨"./Card.txt"⟩, ⟨"./Card+Generated.swift"⟩⟩, ⟨⟨"Card.swift"⟩, ⟨"Card+Generated.swift"⟩⟩]

def twoCardsGenerated : HostState :=
  ((Action.allWell (generateOne {} false) twoCardsPlan).ending twoCards).2

/-- Outputs are told apart by their spelling, so that one file is generated from two sources and
is stale for the first of them. -/
theorem check_fails_after_generate_of_two_spellings :
    Settings.fault? {} = none ∧ twoCards.workspace.tree.Proper ∧ ∃ generated checked,
      ((Command.generate [⟨"./Card.txt"⟩, ⟨"Card.swift"⟩] none).perform {} false).Succeeds
        twoCards true generated ∧
      ((Command.check [⟨"./Card.txt"⟩, ⟨"Card.swift"⟩] none).perform {} false).Succeeds
        generated false checked := by
  have planned {state : HostState} (txt : state.workspace.isFile ⟨"./Card.txt"⟩ = true)
      (swift : state.workspace.isFile ⟨"Card.swift"⟩ = true) :
      state.workspace.HasPlan {} [⟨"./Card.txt"⟩, ⟨"Card.swift"⟩] none twoCardsPlan :=
    hasPlan_of_two_files txt swift (by decide +kernel) (by decide +kernel) (by decide +kernel)
  refine ⟨by decide +kernel, by decide +kernel, twoCardsGenerated,
    ((Action.allWell (checkOne {} false) twoCardsPlan).ending twoCardsGenerated).2, ?_, ?_⟩
  · exact succeeds_generate_iff.mpr ⟨twoCardsPlan,
      planned (by decide +kernel) (by decide +kernel), succeeds_of_answers (by decide +kernel)⟩
  · exact succeeds_check_iff.mpr ⟨twoCardsPlan,
      planned (by decide +kernel) (by decide +kernel), succeeds_of_answers (by decide +kernel)⟩

def oneCard : HostState :=
  ⟨⟨.ofTwoFiles "Card.swift" "Card+Generated.swift" "@UIComponent struct A {}\n" "struct A {}\n"
    (by decide), []⟩, [], []⟩

def oneCardPlan : List PlannedOutput :=
  [⟨⟨"Card+Generated.swift"⟩, ⟨"Card+Generated+Generated.swift"⟩⟩,
    ⟨⟨"Card.swift"⟩, ⟨"Card+Generated.swift"⟩⟩]

def cardText : Text :=
  ((Settings.generatedFor {} ⟨"Card.swift"⟩ "@UIComponent struct A {}\n").1).getD []

/-- Both files are named as roots: the generated one is written over, by a text without
annotations. -/
theorem check_succeeds_after_generate_of_all_files :
    Settings.fault? {} = none ∧ oneCard.workspace.tree.Proper ∧ ∃ generated,
      ((Command.generate [⟨"Card+Generated.swift"⟩, ⟨"Card.swift"⟩] none).perform {} false).Succeeds
        oneCard true generated ∧
      (∃ checked,
        ((Command.check [⟨"Card+Generated.swift"⟩, ⟨"Card.swift"⟩] none).perform {} false).Succeeds
          generated true checked ∧ checked.workspace = generated.workspace) ∧
      ∃ plan, generated.workspace.HasPlan {} [⟨"Card+Generated.swift"⟩, ⟨"Card.swift"⟩] none plan ∧
        ∀ planned ∈ plan, generated.workspace.IsFresh {} planned := by
  have accepted : Settings.fault? {} = none := by decide +kernel
  have proper : oneCard.workspace.tree.Proper := by decide +kernel
  have has : oneCard.workspace.HasPlan {} [⟨"Card+Generated.swift"⟩, ⟨"Card.swift"⟩] none
      oneCardPlan :=
    hasPlan_of_two_files (by decide +kernel) (by decide +kernel) (by decide +kernel)
      (by decide +kernel) (by decide +kernel)
  have oldRead : oneCard.workspace.readText ⟨"Card+Generated.swift"⟩ = .ok "struct A {}\n" := by
    rw [Workspace.readText_eq_ok_iff]
    decide +kernel
  have cardRead : oneCard.workspace.readText ⟨"Card.swift"⟩ = .ok "@UIComponent struct A {}\n" := by
    rw [Workspace.readText_eq_ok_iff]
    decide +kernel
  have renders : ∀ planned ∈ oneCardPlan, ∀ text, oneCard.workspace.Renders {} planned text →
      text = cardText := by
    intro planned member text rendered
    rcases List.mem_cons.mp member with rfl | member
    · -- The old file has no annotations.
      have nothing := rendered.rendering oldRead
      rw [Settings.generatedFor_of_readSites_eq_nil (by decide +kernel)] at nothing
      cases nothing
    · cases List.mem_singleton.mp member
      have something := rendered.rendering cardRead
      rw [cardText, something]
      rfl
  have compatible : ∀ plan,
      oneCard.workspace.HasPlan {} [⟨"Card+Generated.swift"⟩, ⟨"Card.swift"⟩] none plan →
        oneCard.workspace.Compatible {} [⟨"Card+Generated.swift"⟩, ⟨"Card.swift"⟩] plan := by
    intro plan other
    rw [other.unique has]
    refine ⟨fun planned member text rendered _ _ _ _ => ?_,
      fun first member second other text too rendered also _ => ?_⟩
    · rw [renders planned member text rendered]
      decide +kernel
    · rw [renders first member text rendered, renders second other too also]
  have done : ((Command.generate [⟨"Card+Generated.swift"⟩, ⟨"Card.swift"⟩] none).perform {}
      false).Succeeds oneCard true _ :=
    succeeds_generate_iff.mpr ⟨oneCardPlan, has, succeeds_of_answers (by decide +kernel)⟩
  exact ⟨accepted, proper, _, done,
    check_succeeds_after_generate accepted (by decide +kernel) proper compatible done⟩

end StyleMacros
