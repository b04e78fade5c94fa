import StyleMacros.Proofs.Command.Calls
import StyleMacros.Proofs.Command.Freshness
import StyleMacros.Proofs.Files.Rewriting

/-!
# Nothing to generate

Where `check` goes well, all that it plans is fresh: every output holds what its source is rendered
to. `generate` plans the same and writes every output as it is, so each write leaves the tree alone
and the next source is read from the tree that `check` has seen. It does not matter which outputs
lie at one place or over a source.
-/

set_option autoImplicit false

namespace StyleMacros

variable {settings : Settings} {roots : List Path} {outDir : Option Path} {path : Path}
  {plan : List PlannedOutput} {planned : PlannedOutput} {coloured : Bool} {content : Text}
  {before after : HostState}

/-! ## What a good end of `check` says -/

theorem effect_of_checkOutput
    (done : (checkOutput coloured path content).Succeeds before true after) :
    before.workspace.readText path = .ok content ∧ after.workspace = before.workspace := by
  obtain ⟨outcome, _, looked, done⟩ := succeeds_bind_iff.mp done
  obtain ⟨read, rfl⟩ := succeeds_readText_iff.mp looked
  cases outcome with
  | ok present =>
      by_cases same : present = content
      · rw [same] at read
        simp only [if_pos same] at done
        obtain ⟨_, _, printed, done⟩ := succeeds_bind_iff.mp done
        obtain rfl := succeeds_print_iff.mp printed
        obtain ⟨-, rfl⟩ := succeeds_pure_iff.mp done
        exact ⟨read, rfl⟩
      · simp only [if_neg same] at done
        obtain ⟨_, _, _, done⟩ := succeeds_bind_iff.mp done
        cases (succeeds_pure_iff.mp done).1
  | error fault =>
      cases fault with
      | notFound =>
          obtain ⟨_, _, _, done⟩ := succeeds_bind_iff.mp done
          cases (succeeds_pure_iff.mp done).1
      | _ => exact (not_succeeds_throw done).elim

theorem isFresh_of_succeeds_checkOne
    (done : (checkOne settings coloured planned).Succeeds before true after) :
    before.workspace.IsFresh settings planned ∧ after.workspace = before.workspace := by
  obtain ⟨⟨rendering, good⟩, middle, rendered, done⟩ := succeeds_bind_iff.mp done
  obtain ⟨content, read, outcome, rfl⟩ := succeeds_renderSource_iff.mp rendered
  cases rendering with
  | none =>
      obtain ⟨rfl, rfl⟩ := succeeds_pure_iff.mp done
      refine ⟨⟨content, read, by rw [outcome], fun text rendering => ?_⟩, rfl⟩
      rw [outcome] at rendering
      cases rendering
  | some text =>
      obtain ⟨same, _, compared, done⟩ := succeeds_bind_iff.mp done
      obtain ⟨both, rfl⟩ := succeeds_pure_iff.mp done
      obtain ⟨rfl, rfl⟩ := Bool.and_eq_true_iff.mp both
      obtain ⟨present, unchanged⟩ := effect_of_checkOutput compared
      refine ⟨⟨content, read, by rw [outcome], fun other rendering => ?_⟩, unchanged⟩
      rw [outcome] at rendering
      cases rendering
      exact present

theorem isFresh_of_succeeds_checkAll
    (done : (Action.allWell (checkOne settings coloured) plan).Succeeds before true after) :
    (∀ planned ∈ plan, before.workspace.IsFresh settings planned) ∧
      after.workspace = before.workspace := by
  induction plan generalizing before with
  | nil =>
      obtain ⟨-, rfl⟩ := succeeds_pure_iff.mp done
      exact ⟨fun _ member => (List.not_mem_nil member).elim, rfl⟩
  | cons first rest inductionHypothesis =>
      obtain ⟨middle, here, behind⟩ := succeeds_allWell_cons_iff.mp done
      obtain ⟨fresh, same⟩ := isFresh_of_succeeds_checkOne here
      obtain ⟨others, still⟩ := inductionHypothesis behind
      rw [same] at others still
      exact ⟨List.forall_mem_cons.mpr ⟨fresh, others⟩, still⟩

/-! ## Writing what is fresh -/

theorem succeeds_writeOutput_of_readText (present : before.workspace.readText path = .ok content) :
    (writeOutput path content).Succeeds before () before := by
  have wrote : (Action.atPath path (Host.writeText path content)).Succeeds before () before := by
    refine succeeds_atPath_iff.mpr ?_
    change HostState.write path content before = _
    rw [HostState.write, Workspace.write_eq_self present]
  have made : (Action.atPath path.parent (Host.makeDirectories path.parent)).Succeeds before ()
      before := by
    refine succeeds_atPath_iff.mpr ?_
    change HostState.makeDirectories path.parent before = _
    rw [HostState.makeDirectories, Workspace.makeDirectories_parent_eq_self present]
  unfold writeOutput
  simp only
  split
  · exact succeeds_bind_iff.mpr ⟨(), before, made, wrote⟩
  · exact wrote

theorem succeeds_generateOne_of_isFresh (fresh : before.workspace.IsFresh settings planned)
    (coloured : Bool) :
    ∃ after, (generateOne settings coloured planned).Succeeds before true after ∧
      after.workspace = before.workspace := by
  obtain ⟨content, read, good, holds⟩ := fresh
  obtain ⟨told, rendered, same⟩ : ∃ told, (renderSource settings planned.source).Succeeds before
      (settings.generatedFor planned.source content) told ∧ told.workspace = before.workspace :=
    ⟨_, succeeds_renderSource_iff.mpr ⟨content, read, rfl, rfl⟩, rfl⟩
  cases rendering : (settings.generatedFor planned.source content).1 with
  | none =>
      refine ⟨told, succeeds_bind_iff.mpr ⟨_, _, rendered, ?_⟩, same⟩
      simp only [rendering]
      exact succeeds_pure_iff.mpr ⟨good, rfl⟩
  | some text =>
      have wrote := succeeds_writeOutput_of_readText (same ▸ holds text rendering)
      let after : HostState := { told with
        printed := told.printed ++ OutputState.generated.listing coloured planned.output }
      refine ⟨after, succeeds_bind_iff.mpr ⟨_, told, rendered, ?_⟩, same⟩
      simp only [rendering]
      refine succeeds_bind_iff.mpr ⟨(), told, wrote, succeeds_bind_iff.mpr ⟨(), after, ?_, ?_⟩⟩
      · exact succeeds_print_iff.mpr rfl
      · exact succeeds_pure_iff.mpr ⟨good, rfl⟩

/-- Whatever the settings are, `generate` changes nothing where `check` goes well. -/
theorem succeeds_generate_of_succeeds_check {checked now : HostState}
    (passed : ((Command.check roots outDir).perform settings coloured).Succeeds before true checked)
    (same : now.workspace = before.workspace) (later : Bool) :
    checked.workspace = before.workspace ∧ ∃ generated,
      ((Command.generate roots outDir).perform settings later).Succeeds now true generated ∧
        generated.workspace = before.workspace := by
  obtain ⟨plan, has, done⟩ := succeeds_check_iff.mp passed
  obtain ⟨fresh, unchanged⟩ := isFresh_of_succeeds_checkAll done
  obtain ⟨generated, all, still⟩ : ∃ generated,
      (Action.allWell (generateOne settings later) plan).Succeeds now true generated ∧
        generated.workspace = before.workspace := by
    refine succeeds_allWell_of_quiet (fun planned member state here => ?_) same
    rw [← here]
    exact succeeds_generateOne_of_isFresh (here ▸ fresh planned member) later
  exact ⟨unchanged, generated, succeeds_generate_iff.mpr ⟨plan, same ▸ has, all⟩, still⟩

/-! ## Calls -/

/-- When a call of `check`, behind any options, has exited with success, the call of `generate` with
the same arguments does so too, and both leave the tree as it was. -/
theorem generate_changes_nothing_after_check {front back : List Text} {given : Given}
    {options : CallOptions} {checked now : HostState}
    (leading : Given.read none {} front = .ok (given, []))
    (asked : Request.ofArguments (front ++ CommandName.check.text :: back) =
      .ok (.run options (.check roots outDir)))
    (passed : runArguments (m := StateM HostState) (front ++ CommandName.check.text :: back) before =
      (.success, checked))
    (same : now.workspace = before.workspace) :
    checked.workspace = before.workspace ∧ ∃ generated,
      runArguments (m := StateM HostState) (front ++ CommandName.generate.text :: back) now =
          (.success, generated) ∧
        generated.workspace = before.workspace := by
  have generates := Request.ofArguments_generate_of_check leading asked
  obtain ⟨settings, loaded, done⟩ :=
    succeeds_run_iff.mp ((runArguments_eq_success_iff asked).mp passed)
  obtain ⟨unchanged, generated, wrote, still⟩ :=
    succeeds_generate_of_succeeds_check done same (decide (options.colours = .always))
  have ran := succeeds_run_iff.mpr ⟨settings, same ▸ loaded, wrote⟩
  exact ⟨unchanged, generated, (runArguments_eq_success_iff generates).mpr ran, still⟩

def freshCard : HostState :=
  ⟨⟨.ofTwoFiles "Card+Generated.swift" "Card.swift" cardText "@UIComponent struct A {}\n"
    (by decide), []⟩, [], []⟩

/-- Both files are named, so that the output is a source as well. -/
theorem generate_changes_nothing_after_check_of_all_files : ∃ checked generated,
    runArguments (m := StateM HostState)
        ["--color", "never", "check", "Card+Generated.swift", "Card.swift"] freshCard =
        (.success, checked) ∧
      checked.workspace = freshCard.workspace ∧
      runArguments (m := StateM HostState)
        ["--color", "never", "generate", "Card+Generated.swift", "Card.swift"] checked =
        (.success, generated) ∧
      generated.workspace = freshCard.workspace := by
  have leading : Given.read none {} ["--color", "never"] =
      .ok (⟨[(.color, "never")], []⟩, []) := rfl
  have asked : Request.ofArguments ((["--color", "never"] : List Text) ++
      CommandName.check.text :: ["Card+Generated.swift", "Card.swift"]) =
        .ok (.run { colours := .never }
          (.check [⟨"Card+Generated.swift"⟩, ⟨"Card.swift"⟩] none)) := by
    decide +kernel
  have has : freshCard.workspace.HasPlan {} [⟨"Card+Generated.swift"⟩, ⟨"Card.swift"⟩] none
      oneCardPlan :=
    hasPlan_of_two_files (by decide +kernel) (by decide +kernel) (by decide +kernel)
      (by decide +kernel) (by decide +kernel)
  have loaded : freshCard.workspace.Loads none {} := by
    have absent : ¬ freshCard.workspace.isFile defaultSettingsFile = true := by decide +kernel
    rw [Workspace.Loads, if_neg absent]
  have passed := (runArguments_eq_success_iff asked).mpr (succeeds_run_iff.mpr
    ⟨{}, loaded, succeeds_check_iff.mpr
      ⟨oneCardPlan, has, succeeds_of_answers (by decide +kernel)⟩⟩)
  have unchanged := (generate_changes_nothing_after_check leading asked passed rfl).1
  obtain ⟨-, generated, done, still⟩ :=
    generate_changes_nothing_after_check leading asked passed unchanged
  exact ⟨_, generated, passed, unchanged, done, still⟩

end StyleMacros
