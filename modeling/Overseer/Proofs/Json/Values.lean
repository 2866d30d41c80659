import Overseer.Json.Decoder
import Overseer.Proofs.Json.Numbers
import Overseer.Proofs.Json.Strings

/-!
A complete value that is written out is read as that value. The number of characters that are left
bounds the brackets and commas that are left, so that the reader goes on up to the end of the value.
-/
namespace Overseer.Json

namespace Value

/-- A value without a fault, whose names and strings are texts. -/
inductive Complete : Value → Prop
  | null : Complete .null
  | boolean (b : Bool) : Complete (.boolean b)
  | number {n : Number} (formed : n.WellFormed) : Complete (.number n)
  | string (s : String) : Complete (.ofString s)
  | array {items : List Value} (complete : ∀ v ∈ items, Complete v) :
      Complete (.array items .closed)
  | object {members : List (String × Value)} (complete : ∀ m ∈ members, Complete m.2) :
      Complete (.ofMembers members)

theorem Complete.integer (i : Int) : Complete (.ofInt i) :=
  .number (Number.wellFormed_ofInt i)

/-- The text of the value is read as it, whatever ends it. -/
def Reads (v : Value) : Prop :=
  ∀ depth rest, v.write.length ≤ depth → EndsNumber rest →
    readValue depth (v.write ++ rest) = (v, some rest)

end Value

theorem skipSpace_cons {c : Char} (space : isSpace c = false) (cs : List Char) :
    skipSpace (c :: cs) = c :: cs := by
  simp [skipSpace, space]

theorem endsNumber_cons {c : Char} (ends : isDigit c = false ∧ c ≠ '.' ∧ c ≠ 'e' ∧ c ≠ 'E')
    {cs : List Char} : EndsNumber (c :: cs) :=
  fun _ head => Option.some.inj head ▸ ends

def Begins (cs : List Char) : Prop :=
  ∃ c more, cs = c :: more ∧ isSpace c = false ∧ c ≠ ']'

theorem Begins.append {cs : List Char} (begins : Begins cs) (rest : List Char) :
    Begins (cs ++ rest) := by
  obtain ⟨c, more, rfl, space, bracket⟩ := begins
  exact ⟨c, more ++ rest, rfl, space, bracket⟩

structure Leads (c : Char) : Prop where
  number : c = '-' || isDigit c
  space : isSpace c = false
  others : c ∉ ['n', 't', 'f', '"', '[', ']', '\x7b']

theorem leads {c : Char} (number : c = '-' || isDigit c) : Leads c := by
  rcases (Bool.or_eq_true _ _).mp number with minus | digit
  · obtain rfl : c = '-' := of_decide_eq_true minus
    exact ⟨rfl, rfl, by decide⟩
  · have no (other : Char) (no : isDigit other = false) : c ≠ other := ne_of_isDigit digit no
    refine ⟨number, ?_, ?_⟩
    · simp [isSpace, no ' ' rfl, no '\n' rfl, no '\t' rfl, no '\r' rfl]
    · simp [no 'n' rfl, no 't' rfl, no 'f' rfl, no '"' rfl, no '[' rfl, no ']' rfl,
        no '\x7b' rfl]

theorem Number.WellFormed.leads {n : Number} (formed : n.WellFormed) :
    ∃ c more, n.write = c :: more ∧ Leads c := by
  obtain ⟨c, cs, whole⟩ := List.exists_cons_of_ne_nil formed.nonempty
  have digit : isDigit c := formed.whole c (by simp [whole])
  rw [Number.write_eq]
  cases n.negative with
  | true => exact ⟨'-', _, rfl, Json.leads rfl⟩
  | false => exact ⟨c, _, by rw [whole]; rfl, Json.leads (by simp [digit])⟩

theorem Value.Complete.begins {v : Value} (complete : v.Complete) : Begins v.write := by
  cases complete with
  | null => exact ⟨_, _, rfl, rfl, by decide⟩
  | boolean b => cases b <;> exact ⟨_, _, rfl, rfl, by decide⟩
  | number formed =>
    obtain ⟨c, more, text, leads⟩ := formed.leads
    exact ⟨c, more, text, leads.space, fun bracket => leads.others (by simp [bracket])⟩
  | string s => exact ⟨_, _, rfl, rfl, by decide⟩
  | array complete => exact ⟨_, _, rfl, rfl, by decide⟩
  | object complete => exact ⟨_, _, rfl, rfl, by decide⟩

theorem readWord_append (v : Value) (word rest : List Char) :
    readWord v word (word ++ rest) = (v, some rest) := by
  induction word with
  | nil => rfl
  | cons c word ih => simpa [readWord] using ih

theorem readValue_number {n : Number} {c : Char} {cs rest : List Char} (leads : Leads c)
    (read : readNumber (c :: cs) = .ok (n, rest)) (depth : Nat) :
    readValue (depth + 1) (c :: cs) = (.number n, some rest) := by
  have others := leads.others
  simp only [List.mem_cons, List.not_mem_nil, or_false, not_or] at others
  unfold readValue
  rw [skipSpace_cons leads.space]
  split <;> try (next eq => simp_all)
  next eq =>
    obtain ⟨rfl, rfl⟩ := eq
    rw [if_pos leads.number, read]

theorem reads_number {n : Number} (formed : n.WellFormed) : (Value.number n).Reads := by
  intro depth rest bound ends
  have read := readNumber_written formed ends
  obtain ⟨c, more, text, leads⟩ := formed.leads
  cases depth with
  | zero => simp [Value.write, text] at bound
  | succ depth =>
    rw [text] at read
    rw [Value.write, text]
    exact readValue_number leads read depth

theorem reads_string (s : String) : (Value.ofString s).Reads := by
  intro depth rest bound _
  cases depth with
  | zero => simp [Value.ofString, Value.write, Literal.write, writeString] at bound
  | succ depth =>
    have read := readString_written s rest
    simp only [Value.ofString, Value.write, Literal.write, writeString, List.cons_append,
      List.append_assoc, List.nil_append, readValue, skipSpace_cons (c := '"') rfl, read]

theorem readItems_last {depth : Nat} {cs rest : List Char} {v : Value}
    (read : readValue depth cs = (v, some (']' :: rest))) :
    readItems (depth + 1) cs = ([v], .closed, some rest) := by
  simp only [readItems, read, skipSpace_cons (c := ']') rfl]

theorem readItems_more {depth : Nat} {cs more : List Char} {v : Value}
    (read : readValue depth cs = (v, some (',' :: more))) (begins : Begins more) :
    readItems (depth + 1) cs =
      (v :: (readItems depth more).1, (readItems depth more).2) := by
  obtain ⟨c, more, rfl, space, bracket⟩ := begins
  simp only [readItems, read, skipSpace_cons (c := ',') rfl, skipSpace_cons space]
  split
  · next eq => cases eq
  · next eq => exact absurd (List.cons.inj eq).1 bracket
  · rfl

theorem writeItems_begins {v : Value} (complete : v.Complete) (items : List Value) :
    Begins (Value.writeItems (v :: items)) := by
  cases items with
  | nil => exact complete.begins
  | cons => exact complete.begins.append _

theorem readItems_written {items : List Value} (reads : ∀ v ∈ items, v.Complete ∧ v.Reads)
    (nonempty : items ≠ []) (depth : Nat) (rest : List Char)
    (bound : (Value.writeItems items).length < depth) :
    readItems depth (Value.writeItems items ++ ']' :: rest) = (items, .closed, some rest) := by
  induction items generalizing depth with
  | nil => exact absurd rfl nonempty
  | cons v items ih =>
    obtain ⟨complete, read⟩ := reads v (by simp)
    obtain ⟨depth, rfl⟩ : ∃ d, depth = d + 1 := ⟨depth - 1, by omega⟩
    cases items with
    | nil =>
      simp only [Value.writeItems] at bound ⊢
      exact readItems_last (read depth _ (by omega) (endsNumber_cons (by decide)))
    | cons next items =>
      have others : ∀ w ∈ next :: items, w.Complete ∧ w.Reads :=
        fun w member => reads w (List.mem_cons_of_mem v member)
      have begins := (writeItems_begins (others next (by simp)).1 items).append (']' :: rest)
      simp only [Value.writeItems, List.length_append, List.length_cons] at bound
      rw [Value.writeItems, List.append_assoc, List.cons_append,
        readItems_more (read depth _ (by omega) (endsNumber_cons (by decide))) begins,
        ih others (List.cons_ne_nil next items) depth (by omega)]
      · exact List.cons_ne_nil next items

theorem readValue_array {depth : Nat} {cs : List Char} (begins : Begins cs) :
    readValue (depth + 1) ('[' :: cs) =
      (.array (readItems depth cs).1 (readItems depth cs).2.1, (readItems depth cs).2.2) := by
  obtain ⟨c, more, rfl, space, bracket⟩ := begins
  simp only [readValue, skipSpace_cons (c := '[') rfl, skipSpace_cons space]
  split
  · next eq => cases eq
  · next eq => exact absurd (List.cons.inj eq).1 bracket
  · rfl

theorem reads_array {items : List Value} (reads : ∀ v ∈ items, v.Complete ∧ v.Reads) :
    (Value.array items .closed).Reads := by
  intro depth rest bound _
  rw [Value.write] at bound ⊢
  simp only [List.length_append, List.length_cons, List.length_nil] at bound
  obtain ⟨depth, rfl⟩ : ∃ d, depth = d + 1 := ⟨depth - 1, by omega⟩
  rw [List.append_assoc, List.cons_append, List.singleton_append]
  cases items with
  | nil =>
    simp [Value.writeItems, readValue, skipSpace_cons (c := '[') rfl,
      skipSpace_cons (c := ']') rfl]
  | cons v items =>
    have begins := (writeItems_begins (reads v (by simp)).1 items).append (']' :: rest)
    have read := readItems_written reads (List.cons_ne_nil v items) depth rest (by omega)
    rw [readValue_array begins, read]

section Members

variable {depth : Nat} {faulty : Break → Ending} {cs more : List Char} {name : Literal} {v : Value}

theorem readMembers_last {rest : List Char} (named : readString cs = .ok (name, ':' :: more))
    (read : readValue depth more = (v, some ('\x7d' :: rest))) :
    readMembers (depth + 1) faulty cs = ([(name, v)], .closed, some rest) := by
  simp only [readMembers, named, read, skipSpace_cons (c := ':') rfl,
    skipSpace_cons (c := '\x7d') rfl]

theorem readMembers_more {later : List Char} (named : readString cs = .ok (name, ':' :: more))
    (read : readValue depth more = (v, some (',' :: '"' :: later))) :
    readMembers (depth + 1) faulty cs =
      ((name, v) :: (readMembers depth .comma later).1, (readMembers depth .comma later).2) := by
  simp only [readMembers, named, read, skipSpace_cons (c := ':') rfl, skipSpace_cons (c := ',') rfl,
    skipSpace_cons (c := '"') rfl]

end Members

abbrev written (members : List (String × Value)) : List Member :=
  members.map fun m => (.text m.1, m.2)

theorem readMembers_written {members : List (String × Value)} (reads : ∀ m ∈ members, m.2.Reads)
    (nonempty : members ≠ []) :
    ∃ opened, Value.writeMembers (written members) = '"' :: opened ∧
      ∀ depth faulty rest, opened.length < depth →
        readMembers depth faulty (opened ++ '\x7d' :: rest) =
          (written members, .closed, some rest) := by
  induction members with
  | nil => exact absurd rfl nonempty
  | cons member members ih =>
    obtain ⟨name, v⟩ := member
    have read : v.Reads := reads (name, v) (by simp)
    cases members with
    | nil =>
      refine ⟨name.toList.flatMap writeChar ++ '"' :: ':' :: v.write, ?_, ?_⟩
      · simp [Value.writeMembers, Literal.write, writeString]
      · intro depth faulty rest bound
        simp only [List.length_append, List.length_cons] at bound
        obtain ⟨depth, rfl⟩ : ∃ d, depth = d + 1 := ⟨depth - 1, by omega⟩
        have named := readString_written name (':' :: (v.write ++ '\x7d' :: rest))
        rw [List.append_assoc, List.cons_append, List.cons_append]
        exact readMembers_last named (read depth _ (by omega) (endsNumber_cons (by decide)))
    | cons next members =>
      obtain ⟨later, text, last⟩ :=
        ih (fun m member => reads m (List.mem_cons_of_mem _ member)) (List.cons_ne_nil next members)
      refine ⟨name.toList.flatMap writeChar ++ '"' :: ':' :: (v.write ++ ',' :: '"' :: later), ?_,
        ?_⟩
      · simp only [written, List.map_cons] at text
        simp [Value.writeMembers, Literal.write, writeString, text]
      · intro depth faulty rest bound
        simp only [List.length_append, List.length_cons] at bound
        obtain ⟨depth, rfl⟩ : ∃ d, depth = d + 1 := ⟨depth - 1, by omega⟩
        have named := readString_written name
          (':' :: (v.write ++ ',' :: '"' :: (later ++ '\x7d' :: rest)))
        simp only [List.append_assoc, List.cons_append] at named ⊢
        rw [readMembers_more named (read depth _ (by omega) (endsNumber_cons (by decide))),
          last depth .comma rest (by omega)]
        rfl

theorem reads_object {members : List (String × Value)} (reads : ∀ m ∈ members, m.2.Reads) :
    (Value.ofMembers members).Reads := by
  intro depth rest bound _
  rw [Value.ofMembers, Value.write] at bound ⊢
  simp only [List.length_append, List.length_cons, List.length_nil] at bound
  obtain ⟨depth, rfl⟩ : ∃ d, depth = d + 1 := ⟨depth - 1, by omega⟩
  rw [List.append_assoc, List.cons_append, List.singleton_append]
  cases members with
  | nil =>
    simp [Value.writeMembers, readValue, skipSpace_cons (c := '\x7b') rfl,
      skipSpace_cons (c := '\x7d') rfl]
  | cons m members =>
    obtain ⟨opened, text, read⟩ := readMembers_written reads (List.cons_ne_nil m members)
    rw [text, List.length_cons] at bound
    simp only [text, List.cons_append, readValue, skipSpace_cons (c := '\x7b') rfl,
      skipSpace_cons (c := '"') rfl, read depth .cut rest (by omega)]

theorem Value.Complete.reads {v : Value} (complete : v.Complete) : v.Reads := by
  induction complete with
  | null =>
    intro depth rest bound _
    cases depth with
    | zero => cases bound
    | succ depth => exact readWord_append .null ['u', 'l', 'l'] rest
  | boolean b =>
    intro depth rest bound _
    cases depth with
    | zero => cases b <;> cases bound
    | succ depth =>
      cases b with
      | true => exact readWord_append (.boolean true) ['r', 'u', 'e'] rest
      | false => exact readWord_append (.boolean false) ['a', 'l', 's', 'e'] rest
  | number formed => exact reads_number formed
  | string s => exact reads_string s
  | array complete reads => exact reads_array fun v member => ⟨complete v member, reads v member⟩
  | object _ reads => exact reads_object reads

/-- A complete value is read back from its text, and nothing of the text is left. -/
theorem read_render {v : Value} (complete : v.Complete) : read v.render = (v, some []) := by
  have read := complete.reads (2 * v.write.length + 2) [] (by omega) fun _ head => by cases head
  rw [List.append_nil] at read
  rw [Json.read, Value.render, String.toList_ofList, String.length_ofList]
  exact read

theorem decodeText_render {α : Type} (decode : Value → Decoded α) {v : Value}
    (complete : v.Complete) : decodeText decode v.render = decode v := by
  unfold decodeText
  rw [read_render complete]
  cases decoded : decode v <;> simp [decoded, skipSpace]

end Overseer.Json
