import StyleMacros.Diagnostic
import StyleMacros.Settings

/-!
# Output plans

A plan gives every source the path of its generated file. There is none if two sources would
share one.
-/

set_option autoImplicit false

namespace StyleMacros

structure PlannedOutput where
  source : Path
  output : Path
  deriving DecidableEq

/-- A source whose output another source has taken already. -/
structure OutputClash where
  output : Path
  first : Path
  second : Path
  deriving DecidableEq

def OutputClash.diagnostic (clash : OutputClash) : Diagnostic :=
  .io clash.output.text
    ("would be generated from both `" ++ clash.first.text ++ "` and `" ++ clash.second.text ++ "`")

def planBehind (settings : Settings) (outDir : Option Path) (planned : List PlannedOutput) :
    List Path → Except OutputClash (List PlannedOutput)
  | [] => .ok []
  | source :: rest =>
    let output := settings.outputPath source outDir
    match planned.find? (fun earlier => earlier.output.same output) with
    | some earlier => .error ⟨output, earlier.source, source⟩
    | none =>
      (planBehind settings outDir (planned ++ [⟨source, output⟩]) rest).map (⟨source, output⟩ :: ·)

def planOutputs (settings : Settings) (outDir : Option Path) (sources : List Path) :
    Except OutputClash (List PlannedOutput) :=
  planBehind settings outDir [] sources

end StyleMacros
