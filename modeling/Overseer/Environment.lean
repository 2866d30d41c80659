import Overseer.Text.Utf8

/-!
Environment overrides: at most one value for each variable, in the order of the variables' names,
which is that of their bytes.
-/
namespace Overseer

abbrev Variable := String × String

/-- The order of byte strings: the first byte that differs decides, and a beginning comes before
what goes on. -/
def bytesBefore : List UInt8 → List UInt8 → Bool
  | _, [] => false
  | [], _ :: _ => true
  | a :: as, b :: bs => a.toNat < b.toNat || (a = b && bytesBefore as bs)

theorem bytesBefore_trans {a b c : List UInt8}
    (first : bytesBefore a b) (second : bytesBefore b c) :
    bytesBefore a c := by
  induction a generalizing b c with
  | nil =>
    cases c with
    | nil => cases b <;> simp [bytesBefore] at second
    | cons => rfl
  | cons x as ih =>
    cases b with
    | nil => simp [bytesBefore] at first
    | cons y bs =>
      cases c with
      | nil => simp [bytesBefore] at second
      | cons z cs =>
        simp only [bytesBefore, Bool.or_eq_true, Bool.and_eq_true, decide_eq_true_eq] at *
        rcases first with less | ⟨rfl, less⟩ <;> rcases second with less' | ⟨rfl, less'⟩
        · exact .inl (Nat.lt_trans less less')
        · exact .inl less
        · exact .inl less'
        · exact .inr ⟨rfl, ih less less'⟩

theorem bytesBefore_total {a b : List UInt8} (different : a ≠ b) (not : ¬bytesBefore a b) :
    bytesBefore b a := by
  induction a generalizing b with
  | nil =>
    cases b with
    | nil => exact absurd rfl different
    | cons => simp [bytesBefore] at not
  | cons x as ih =>
    cases b with
    | nil => rfl
    | cons y bs =>
      simp only [bytesBefore, Bool.or_eq_true, Bool.and_eq_true, decide_eq_true_eq] at *
      by_cases same : x = y
      · subst same
        exact .inr ⟨rfl, ih (fun h => different (h ▸ rfl)) fun h => not (.inr ⟨rfl, h⟩)⟩
      · have : x.toNat ≠ y.toNat := fun h => same (UInt8.toNat_inj.1 h)
        exact .inl (by omega)

namespace Environment

def precedes (a b : String) : Bool :=
  bytesBefore (Utf8.encode a) (Utf8.encode b)

theorem precedes_trans {a b c : String} (first : precedes a b) (second : precedes b c) :
    precedes a c :=
  bytesBefore_trans first second

theorem precedes_total {a b : String} (different : a ≠ b) (not : ¬precedes a b) : precedes b a :=
  bytesBefore_total (fun h => different (Utf8.encode_inj h)) not

def insertEntry (name value : String) : List Variable → List Variable
  | [] => [(name, value)]
  | entry :: rest =>
    if entry.1 = name then (name, value) :: rest
    else if precedes entry.1 name then entry :: insertEntry name value rest
    else (name, value) :: entry :: rest

abbrev Ascending (entries : List Variable) : Prop :=
  entries.Pairwise fun a b => precedes a.1 b.1

theorem fst_of_mem_insertEntry {name value : String} {entries : List Variable} {e : Variable}
    (member : e ∈ insertEntry name value entries) : e.1 = name ∨ ∃ d ∈ entries, d.1 = e.1 := by
  induction entries with
  | nil => simp [insertEntry] at member; simp [member]
  | cons head rest ih =>
    unfold insertEntry at member
    split at member
    · rcases List.mem_cons.1 member with rfl | inner
      · exact .inl rfl
      · exact .inr ⟨e, by simp [inner], rfl⟩
    · split at member
      · rcases List.mem_cons.1 member with rfl | inner
        · exact .inr ⟨e, by simp⟩
        · rcases ih inner with same | ⟨d, inside, same⟩
          · exact .inl same
          · exact .inr ⟨d, by simp [inside], same⟩
      · rcases List.mem_cons.1 member with rfl | inner
        · exact .inl rfl
        · exact .inr ⟨e, inner, rfl⟩

theorem ascending_insertEntry (name value : String) {entries : List Variable}
    (ascending : Ascending entries) : Ascending (insertEntry name value entries) := by
  induction entries with
  | nil => simp [insertEntry]
  | cons head rest ih =>
    have ⟨least, tail⟩ := List.pairwise_cons.1 ascending
    unfold insertEntry
    split
    case isTrue same => exact List.pairwise_cons.2 ⟨same ▸ least, tail⟩
    case isFalse different =>
      split
      case isTrue before =>
        refine List.pairwise_cons.2 ⟨fun e member => ?_, ih tail⟩
        rcases fst_of_mem_insertEntry member with same | ⟨d, inside, same⟩
        · simpa only [same] using before
        · exact same ▸ least d inside
      case isFalse behind =>
        have before := precedes_total different behind
        refine List.pairwise_cons.2 ⟨fun e member => ?_, ascending⟩
        rcases List.mem_cons.1 member with rfl | inner
        · exact before
        · exact precedes_trans before (least e inner)

end Environment

structure Environment where
  entries : List Variable
  ascending : Environment.Ascending entries
  deriving DecidableEq, Repr

namespace Environment

def empty : Environment := ⟨[], .nil⟩

instance : Inhabited Environment := ⟨empty⟩

def insert (e : Environment) (name value : String) : Environment :=
  ⟨insertEntry name value e.entries, ascending_insertEntry name value e.ascending⟩

def get? (e : Environment) (name : String) : Option String :=
  e.entries.lookup name

/-- Inserts in order, so that the last value of a variable stays. -/
def ofList (entries : List Variable) : Environment :=
  entries.foldl (fun e v => e.insert v.1 v.2) empty

end Environment

end Overseer
