import Dabara.Text.Line
import Dabara.Token

set_option autoImplicit false

namespace Dabara

/-- A categorised range of bytes within a line. -/
structure Highlight where
  start : Nat
  stop : Nat
  category : Category
  deriving DecidableEq

namespace Token

/-- The part of a token on a line, in bytes from the start of the line. -/
def clip (token : Token) (span : LineSpan) : Option Highlight :=
  let start := max token.start span.start - span.start
  let stop := min token.stop span.textStop - span.start
  if start < stop then some ⟨start, stop, token.category⟩ else none

/-- The parts of a token on consecutive lines, the first of which is numbered `line`. The walk ends
with the line that holds the token's last byte. -/
def pieces (token : Token) (line : Nat) : List LineSpan → List (Nat × Highlight)
  | [] => []
  | span :: rest =>
      ((token.clip span).map (line, ·)).toList ++
        if token.stop ≤ span.stop then [] else token.pieces (line + 1) rest

end Token

namespace Highlight

/-- The parts of all tokens that are not plain, each with the number of its line. -/
def pieces (source : Text) : List (Nat × Highlight) :=
  let starts := lineStarts source
  let spans := lineSpans source
  (scan source).flatMap fun token =>
    if token.category.isPlain then []
    else
      let line := lineOf starts token.start
      token.pieces line (spans.drop line)

/-- The highlights of every line of a source, in the order of its tokens. -/
def perLine (source : Text) : List (List Highlight) :=
  let all := pieces source
  (List.range (lineSpans source).length).map fun line =>
    all.filterMap fun piece => if piece.1 = line then some piece.2 else none

/-- Pieces of `line` from byte `position` on. A highlight is lowered to boundaries of the line and
begins no earlier than what has been painted; the gap before it is plain. -/
def segmentsFrom (line : Text) (position : Nat) : List Highlight → List Fragment
  | [] =>
      if position < byteLength line then [⟨.plain, dropBytes position line⟩] else []
  | highlight :: rest =>
      let start := max (floorBoundary line highlight.start) position
      let stop := floorBoundary line highlight.stop
      (if position < start then [⟨.plain, sliceBytes line position start⟩] else []) ++
        (if start < stop then [⟨highlight.category, sliceBytes line start stop⟩] else []) ++
        segmentsFrom line (max position stop) rest

def segments (highlights : List Highlight) (line : Text) : List Fragment :=
  segmentsFrom line 0 highlights

end Highlight

end Dabara
