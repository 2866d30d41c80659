import Overseer.Text.Blank

/-!
Argument strings: one line that holds a list of arguments. White space separates them, double
quotes group and are removed, and a backslash is literal unless a double quote follows its run:
then each pair is one backslash and an odd one out makes the quote literal. `split` reads such a
string and `join` writes one.
-/
namespace Overseer.Arguments

/-- What a character stands for once the backslashes before it are counted. -/
inductive Symbol where
  | literal (c : Char)
  | blank (c : Char)
  | toggle
  deriving DecidableEq, Repr

def backslashes (n : Nat) : List Symbol :=
  List.replicate n (.literal '\\')

/-- What a run of `n` backslashes and the quote after it stand for. -/
def escaped (n : Nat) : List Symbol :=
  backslashes (n / 2) ++ [if n % 2 = 1 then .literal '"' else .toggle]

/-- Looks past a whole run of backslashes to see whether a quote follows it. -/
def symbols : List Char → List Symbol
  | [] => []
  | c :: cs =>
    if c = '\\' then
      let n := (cs.takeWhile (· = '\\')).length + 1
      match _h : cs.dropWhile (· = '\\') with
      | '"' :: rest => escaped n ++ symbols rest
      | rest => backslashes n ++ symbols rest
    else if c = '"' then .toggle :: symbols cs
    else if Text.isBlank c then .blank c :: symbols cs
    else .literal c :: symbols cs
termination_by cs => cs.length
decreasing_by
  all_goals
    try have shorter := (List.dropWhile_sublist (l := cs) (p := (· = '\\'))).length_le
    simp_all <;> omega

/-- Groups symbols into arguments. `token` holds the characters of the open argument, last first. -/
def group (token : Option (List Char)) (quoted : Bool) : List Symbol → List String
  | [] => token.toList.map fun t => String.ofList t.reverse
  | .literal c :: rest => group (some (c :: token.getD [])) quoted rest
  | .toggle :: rest => group (some (token.getD [])) (!quoted) rest
  | .blank c :: rest =>
    if quoted then group (some (c :: token.getD [])) quoted rest
    else
      match token with
      | none => group none false rest
      | some t => String.ofList t.reverse :: group none false rest

def split (arguments : String) : List String :=
  group none false (symbols arguments.toList)

def needsQuotes (argument : List Char) : Bool :=
  argument.isEmpty || argument.any Text.isBlank

/-- Writes the characters of an argument after `n` backslashes that are still to be written. They
are doubled before a quote, also before the one that ends the argument if `closing` is set. -/
def escape (closing : Bool) (n : Nat) : List Char → List Char
  | [] => List.replicate (if closing then n * 2 else n) '\\'
  | c :: cs =>
    if c = '\\' then escape closing (n + 1) cs
    else if c = '"' then List.replicate (n * 2 + 1) '\\' ++ '"' :: escape closing 0 cs
    else List.replicate n '\\' ++ c :: escape closing 0 cs

def write (argument : List Char) : List Char :=
  if needsQuotes argument then '"' :: escape true 0 argument ++ ['"']
  else escape false 0 argument

def join (arguments : List String) : String :=
  String.ofList ([' '].intercalate (arguments.map fun a => write a.toList))

end Overseer.Arguments
