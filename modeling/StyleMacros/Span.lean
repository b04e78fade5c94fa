import StyleMacros.Text.Basic

/-!
# Spans

A span is a range of byte offsets into a source text.
-/

set_option autoImplicit false

namespace StyleMacros

structure Span where
  start : Nat := 0
  stop : Nat := 0
  deriving DecidableEq, Inhabited

namespace Span

/-- The number of bytes covered; a reversed span covers none. -/
def length (span : Span) : Nat :=
  span.stop - span.start

def isEmpty (span : Span) : Bool :=
  span.length = 0

/-- The span of what lies between two end parts of a text that has `total` bytes. -/
def between (total : Nat) (text rest : Text) : Span :=
  ⟨total - text.size, total - rest.size⟩

def text (span : Span) (source : Text) : Text :=
  source.slice span.start span.stop

end Span

structure Located (α : Type) where
  value : α
  span : Span
  deriving DecidableEq

end StyleMacros
