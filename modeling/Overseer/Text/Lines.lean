import Overseer.Text.Blank
import Overseer.Text.Utf8

/-!
Lines of a byte stream. A newline byte ends a line, and what stands after the last one is a line if
it is not empty. A line is decoded lossily and loses every carriage return at its end. A reader
takes the stream in any pieces. A text that is complete is cut into lines likewise, but a line loses
no more than the carriage return that is part of its end.
-/
namespace Overseer

/-- The bytes of the line that is not ended yet, last byte first. -/
structure LineReader where
  held : List UInt8 := []
  deriving DecidableEq, Repr

namespace LineReader

def newline : UInt8 := 0x0a

def line (segment : List UInt8) : String :=
  String.ofList (Text.trimEnd (· = '\r') (Utf8.decode segment).toList)

/-- Takes one piece of the stream and gives the lines that it ends. -/
def feed (r : LineReader) : List UInt8 → List String × LineReader
  | [] => ([], r)
  | b :: bs =>
    if b = newline then
      let (lines, r') := feed ⟨[]⟩ bs
      (line r.held.reverse :: lines, r')
    else feed ⟨b :: r.held⟩ bs

def finish (r : LineReader) : List String :=
  if r.held.isEmpty then [] else [line r.held.reverse]

def feedAll (r : LineReader) : List (List UInt8) → List String × LineReader
  | [] => ([], r)
  | piece :: pieces =>
    let (lines, r') := r.feed piece
    let (more, r'') := r'.feedAll pieces
    (lines ++ more, r'')

/-- The lines of a stream that arrives in pieces and then ends. -/
def lines (pieces : List (List UInt8)) : List String :=
  let (complete, r) := feedAll {} pieces
  complete ++ r.finish

end LineReader

namespace Text

/-- The line that characters stand for, last first, which a newline ends: a carriage return before
it belongs to that end. -/
def endedLine : List Char → String
  | '\r' :: line => String.ofList line.reverse
  | line => String.ofList line.reverse

def linesFrom (held : List Char) : List Char → List String
  | [] => if held.isEmpty then [] else [String.ofList held.reverse]
  | c :: cs => if c = '\n' then endedLine held :: linesFrom [] cs else linesFrom (c :: held) cs

/-- The lines of a text. What stands after the last newline is a line if it is not empty. -/
def lines (s : String) : List String :=
  linesFrom [] s.toList

end Text

end Overseer
