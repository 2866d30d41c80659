/-!
Text without what only controls a terminal: escape sequences from their first to their last
character, strings that are addressed to the terminal itself, and control characters that are not
white space. A white control that is met inside a sequence breaks it off and stays.
-/
namespace Overseer.Text

namespace Control

inductive Mode where
  | ground
  | escape
  /-- After an escape and characters that select what the last one means. -/
  | selecting
  /-- Parameters, up to a letter. -/
  | parameters
  /-- A string that another escape ends; one for the window's title ends with a bell too. -/
  | string (bell : Bool)
  deriving DecidableEq, Repr

def isWhite (n : Nat) : Bool :=
  n == 0x9 || n == 0xa || n == 0xc || n == 0xd

/-- How a character that is neither a control nor beyond ASCII goes on with an escape. -/
def afterEscape (n : Nat) : Mode :=
  if n < 0x30 then .selecting
  else if n == 0x5b then .parameters
  else if n == 0x5d then .string true
  else if n == 0x50 || n == 0x58 || n == 0x5e || n == 0x5f then .string false
  else .ground

/-- What becomes of the mode in a sequence, and whether the character stays. An escape begins anew
and two controls cancel. -/
def stepAscii (n : Nat) : Mode → Mode × Bool
  | .ground =>
    if n == 0x1b then (.escape, false) else (.ground, (0x20 ≤ n && n < 0x7f) || isWhite n)
  | mode =>
    if n == 0x1b then (.escape, false)
    else if n == 0x18 || n == 0x1a then (.ground, false)
    else
      match mode with
      | .string bell => (if bell && n == 0x7 then .ground else mode, false)
      | _ =>
        if isWhite n then (.ground, true)
        else if n < 0x20 || n == 0x7f then (mode, false)
        else
          match mode with
          | .escape => (afterEscape n, false)
          | .selecting => (if n < 0x30 then .selecting else .ground, false)
          | _ => (if n < 0x40 then mode else .ground, false)

/-- What stays of a text from a mode on. A character beyond ASCII breaks a sequence off; of its
bytes all but the first stay, which stand for no character. -/
def strip : Mode → List Char → List Char
  | _, [] => []
  | mode, c :: cs =>
    if c.toNat < 0x80 then
      let (next, stays) := stepAscii c.toNat mode
      if stays then c :: strip next cs else strip next cs
    else if mode = .ground then c :: strip .ground cs
    else List.replicate (c.utf8Size - 1) '\ufffd' ++ strip .ground cs

end Control

def withoutControls (s : String) : String :=
  String.ofList (Control.strip .ground s.toList)

end Overseer.Text
