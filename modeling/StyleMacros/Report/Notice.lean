import StyleMacros.Command.Host

/-!
# Notices

The text of a complaint, for a reader.
-/

set_option autoImplicit false

namespace StyleMacros

/-- The line and the column of a byte of a text, both counted from one. -/
def SourceText.position (source : SourceText) (offset : Nat) : Nat × Nat :=
  let lines := Text.splitOn '\n' (source.content.takeBytes offset)
  (lines.length, (lines.getLastD []).length + 1)

namespace Diagnostic

def notice (diagnostic : Diagnostic) : Text :=
  let (line, column) := diagnostic.source.position diagnostic.span.start
  let help :=
    match diagnostic.help with
    | some help => Text.asLine ("  help: " ++ help)
    | none => []
  Text.asLine ("error[" ++ diagnostic.code ++ "]: " ++ diagnostic.kind.display) ++
    Text.asLine ("  at " ++ diagnostic.source.name ++ ":" ++ Text.ofNat line ++ ":" ++
      Text.ofNat column ++ ": " ++ diagnostic.kind.label) ++
    help

end Diagnostic

def Complaint.notice : Complaint → Text
  | .usage fault =>
    Text.asLine ("error: " ++ fault.message) ++
      Text.asLine "For more information, try '--help'."
  | .diagnostic found => found.notice

end StyleMacros
