import Overseer.Json.Reader
import Overseer.Json.Writer

/-!
A string that is written out is read as that string, whatever comes after its closing quote. Each
character is read as itself or, if it is a control character, as the code unit of its number, which
is no half of a pair.
-/
namespace Overseer.Json

inductive Piece.StandsFor : Piece → Char → Prop
  | char (c : Char) : StandsFor (.char c) c
  | unit {c : Char} (control : c.toNat < 0x20) : StandsFor (.unit c.toNat) c

theorem controlEscape_ofNat : ∀ n < 0x20,
    controlEscape (Char.ofNat n) =
      ['\\', 'u', '0', '0', (n / 16).digitChar, (n % 16).digitChar] := by
  decide

theorem hexValue?_control : ∀ n < 0x20,
    hexValue? ['0', '0', (n / 16).digitChar, (n % 16).digitChar] = some n := by
  decide

theorem scan_controlEscape {c : Char} (control : c.toNat < 0x20) (rest : List Char) :
    scan (controlEscape c ++ rest) = (scan rest).cons (.unit c.toNat) := by
  have spelled := controlEscape_ofNat c.toNat control
  rw [Char.ofNat_toNat] at spelled
  simp only [spelled, List.cons_append, List.nil_append, scan, hexValue?_control c.toNat control]

theorem scan_escaped {c e : Char} (unicode : c ≠ 'u') (escaped : escaped? c = some e)
    (rest : List Char) : scan ('\\' :: c :: rest) = (scan rest).cons (.char e) := by
  rw [scan.eq_def]
  split <;> grind

theorem scan_plain {c : Char} (quote : c ≠ '"') (backslash : c ≠ '\\') (printable : ¬c < ' ')
    (rest : List Char) : scan (c :: rest) = (scan rest).cons (.char c) := by
  rw [scan.eq_def]
  split <;> grind

/-- One character is read at a time. -/
theorem scan_writeChar (c : Char) (rest : List Char) :
    ∃ p, Piece.StandsFor p c ∧ scan (writeChar c ++ rest) = (scan rest).cons p := by
  have short {e : Char} (unicode : e ≠ 'u') (escaped : escaped? e = some c) :
      ∃ p, Piece.StandsFor p c ∧ scan (['\\', e] ++ rest) = (scan rest).cons p :=
    ⟨.char c, .char c, scan_escaped unicode escaped rest⟩
  have numbered {n : Nat} (number : c.toNat = n) : c = Char.ofNat n := by
    rw [← number, Char.ofNat_toNat]
  unfold writeChar
  by_cases quote : c = '"'
  · subst quote
    exact short (by decide) rfl
  by_cases backslash : c = '\\'
  · subst backslash
    exact short (by decide) rfl
  simp only [quote, backslash, if_false]
  by_cases backspace : c.toNat = 8
  · rw [if_pos backspace]
    exact short (by decide) (numbered backspace ▸ rfl)
  by_cases feed : c.toNat = 12
  · rw [if_neg backspace, if_pos feed]
    exact short (by decide) (numbered feed ▸ rfl)
  simp only [backspace, feed, if_false]
  by_cases newline : c = '\n'
  · subst newline
    exact short (by decide) rfl
  by_cases ret : c = '\r'
  · subst ret
    exact short (by decide) rfl
  by_cases tab : c = '\t'
  · subst tab
    exact short (by decide) rfl
  simp only [newline, ret, tab, if_false]
  by_cases control : c < ' '
  · rw [if_pos control]
    exact ⟨_, .unit control, scan_controlEscape control rest⟩
  · rw [if_neg control]
    exact ⟨_, .char c, scan_plain quote backslash control rest⟩

theorem pairUp_unit {n : Nat} (low : n < 0xd800) (rest : List Piece) :
    pairUp (.unit n :: rest) = (pairUp rest).cons (Char.ofNat n) := by
  have first : isFirstHalf n = false := by simp [isFirstHalf]; omega
  have second : isSecondHalf n = false := by simp [isSecondHalf]; omega
  cases rest with
  | nil => simp [pairUp, first, second, Pairing.cons]
  | cons p rest => cases p <;> simp [pairUp, first, second]

theorem Piece.StandsFor.pairUp {p : Piece} {c : Char} (stands : p.StandsFor c) (rest : List Piece) :
    pairUp (p :: rest) = (Json.pairUp rest).cons c := by
  cases stands with
  | char => rfl
  | unit control => rw [pairUp_unit (by omega), Char.ofNat_toNat]

theorem scan_written (cs rest : List Char) :
    ∃ pieces, scan (cs.flatMap writeChar ++ '"' :: rest) = (pieces, .ok rest) ∧
      pairUp pieces = .text cs := by
  induction cs with
  | nil => exact ⟨[], by simp [scan], rfl⟩
  | cons c cs ih =>
    obtain ⟨pieces, scanned, paired⟩ := ih
    obtain ⟨p, stands, one⟩ := scan_writeChar c (cs.flatMap writeChar ++ '"' :: rest)
    refine ⟨p :: pieces, ?_, ?_⟩
    · rw [List.flatMap_cons, List.append_assoc, one, scanned]
      rfl
    · rw [stands.pairUp, paired]
      rfl

/-- The reader starts behind the opening quote. -/
theorem readString_written (s : String) (rest : List Char) :
    readString (s.toList.flatMap writeChar ++ '"' :: rest) = .ok (.text s, rest) := by
  obtain ⟨pieces, scanned, paired⟩ := scan_written s.toList rest
  simp only [readString, scanned, paired, String.ofList_toList]

end Overseer.Json
