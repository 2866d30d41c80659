import Overseer.Proofs.Json.Members
import Overseer.Proofs.Outcomes
import Overseer.Proofs.Settings.Overrides
import Overseer.Proofs.Settings.Texts

/-!
Which objects are settings, and which settings they are. Each field is given at most once and with a
value of its type; the directory and the program are given. Members of other names do not count, nor
does the order of the members. Where an object is refused, the first member at fault says why.
-/
namespace Overseer.Settings

open Json (Value Decoded DecodeError Holds valuesOf foldMembers written)

def textual (entries : List Variable) : List (String × Value) :=
  entries.map fun v => (v.1, .ofString v.2)

/-- What the members of an object say about settings. Of a variable that is given more than once the
last value counts. -/
structure Describes (members : List (String × Value)) (s : Settings) : Prop where
  workingDirectory : valuesOf "working_directory" members = [.ofString s.workingDirectory]
  program : valuesOf "program" members = [.ofString s.program]
  arguments : valuesOf "arguments" members = [] ∧ s.arguments = "" ∨
    valuesOf "arguments" members = [.ofString s.arguments]
  environment : valuesOf "environment" members = [] ∧ s.environment = .empty ∨
    ∃ entries, valuesOf "environment" members = [.ofMembers (textual entries)] ∧
      ∀ name, s.environment.get? name = entries.reverse.lookup name
  captureStderr : valuesOf "capture_stderr" members = [] ∧ s.captureStderr = false ∨
    valuesOf "capture_stderr" members = [.boolean s.captureStderr]

def textFields : List (String × String) :=
  [("working_directory", "path string"), ("program", "path string"), ("arguments", "a string")]

/-- A value that is of the wrong type for a field, and the error that it is. Among variables the
first decides that is no text. -/
inductive Misfit (name : String) : Value → DecodeError → Prop
  | text {expected : String} {v : Value} (field : (name, expected) ∈ textFields)
      (other : ∀ s, v ≠ .ofString s) : Misfit name v (v.mismatch expected)
  | flag {v : Value} (field : name = "capture_stderr") (other : ∀ b, v ≠ .boolean b) :
      Misfit name v (v.mismatch "a boolean")
  | object {v : Value} (field : name = "environment") (other : ∀ members, v ≠ .ofMembers members) :
      Misfit name v (v.mismatch "a map")
  | entry {entries : List Variable} {key : String} {v : Value} {later : List (String × Value)}
      (field : name = "environment") (other : ∀ s, v ≠ .ofString s) :
      Misfit name (.ofMembers (textual entries ++ (key, v) :: later)) (v.mismatch "a string")

/-- A member is at fault after others. That a field is given again counts before its value does. -/
inductive Fault (before : List (String × Value)) : String × Value → DecodeError → Prop
  | again {name : String} {v : Value} (field : name ∈ fieldNames)
      (given : name ∈ before.map Prod.fst) : Fault before (name, v) (.duplicateField name)
  | misfit {name : String} {v : Value} {e : DecodeError} (first : name ∉ before.map Prod.fst)
      (wrong : Misfit name v e) : Fault before (name, v) e

def Faultless (members : List (String × Value)) : Prop :=
  ∀ before m later e, members = before ++ m :: later → ¬Fault before m e

/-- Why members are not settings: by the first that is at fault, or by a field that is missing. -/
inductive Refused (members : List (String × Value)) : DecodeError → Prop
  | fault {before : List (String × Value)} {m : String × Value} {later : List (String × Value)}
      {e : DecodeError} (split : members = before ++ m :: later) (first : Faultless before)
      (fault : Fault before m e) : Refused members e
  | noDirectory (faultless : Faultless members)
      (missing : "working_directory" ∉ members.map Prod.fst) :
      Refused members (.missingField "working_directory")
  | noProgram (faultless : Faultless members)
      (given : "working_directory" ∈ members.map Prod.fst)
      (missing : "program" ∉ members.map Prod.fst) :
      Refused members (.missingField "program")

theorem decodeString_eq_ok_iff {expected : String} {v : Value} {s : String} :
    v.decodeString expected = .ok s ↔ v = .ofString s := by
  unfold Value.decodeString
  split
  next => simp [Value.ofString]
  next other =>
    refine iff_of_false (by simp) ?_
    rintro rfl
    exact other s rfl

theorem decodeString_eq_error_iff {expected : String} {v : Value} {e : DecodeError} :
    v.decodeString expected = .error e ↔ (∀ s, v ≠ .ofString s) ∧ e = v.mismatch expected := by
  unfold Value.decodeString
  split
  next s => exact iff_of_false (by simp) fun ⟨other, _⟩ => other s rfl
  next other =>
    have texts (s : String) : v ≠ .ofString s := other s
    simp [texts, eq_comm]

theorem decodeBoolean_eq_ok_iff {v : Value} {b : Bool} :
    v.decodeBoolean = .ok b ↔ v = .boolean b := by
  cases v <;> simp [Value.decodeBoolean]

theorem decodeBoolean_eq_error_iff {v : Value} {e : DecodeError} :
    v.decodeBoolean = .error e ↔ (∀ b, v ≠ .boolean b) ∧ e = v.mismatch "a boolean" := by
  cases v <;> simp [Value.decodeBoolean, eq_comm]

theorem textual_inj {entries entries' : List Variable} :
    textual entries = textual entries' ↔ entries = entries' :=
  List.map_inj_right fun v v' same => by
    cases v
    cases v'
    simpa [Value.ofString] using same

theorem complete_textual (entries : List Variable) : (Value.ofMembers (textual entries)).Complete :=
  .object fun m member => by
    obtain ⟨v, -, rfl⟩ := List.mem_map.mp member
    exact .string v.2

theorem foldMembers_putVariable_cons (e : Environment) (m : String × Value)
    (members : List (String × Value)) :
    foldMembers putVariable .closed e (written (m :: members)) =
      (m.2.decodeString "a string").bind fun s =>
        foldMembers putVariable .closed (e.insert m.1 s) (written members) := by
  simp only [written, List.map_cons, foldMembers, putVariable]
  cases m.2.decodeString "a string" <;> rfl

/-- Variables are taken as long as they are texts. -/
theorem foldMembers_putVariable_eq_ok_iff {e e' : Environment} {members : List (String × Value)} :
    foldMembers putVariable .closed e (written members) = .ok e' ↔
      ∃ entries, members = textual entries ∧
        entries.foldl (fun e v => e.insert v.1 v.2) e = e' := by
  constructor
  · intro taken
    induction members generalizing e with
    | nil => exact ⟨[], rfl, Except.ok.inj taken⟩
    | cons m members ih =>
      obtain ⟨name, v⟩ := m
      rw [foldMembers_putVariable_cons] at taken
      cases text : v.decodeString "a string" with
      | error => simp [text, Except.bind] at taken
      | ok s =>
        obtain rfl := decodeString_eq_ok_iff.mp text
        obtain ⟨entries, rfl, same⟩ := ih taken
        exact ⟨(name, s) :: entries, rfl, same⟩
  · rintro ⟨entries, rfl, rfl⟩
    exact foldMembers_putVariable e entries

theorem decodeEnvironment_eq_ok_iff {v : Value} (complete : v.Complete) {e : Environment} :
    decodeEnvironment v = .ok e ↔
      ∃ entries, v = .ofMembers (textual entries) ∧ Environment.ofList entries = e := by
  cases complete with
  | object =>
    refine foldMembers_putVariable_eq_ok_iff.trans (exists_congr fun entries => ?_)
    simp only [Json.ofMembers_inj]
    rfl
  | _ => simp [decodeEnvironment, Value.ofMembers, Value.ofString]

theorem decodeEnvironment_eq_error_iff {v : Value} (complete : v.Complete) {e : DecodeError} :
    decodeEnvironment v = .error e ↔ Misfit "environment" v e := by
  constructor
  · intro refused
    cases complete with
    | @object members complete =>
      obtain ⟨before, ⟨name, v⟩, later, taken, rfl, passed, failed⟩ :=
        (Json.foldMembers_eq_error_iff _ _ _).mp refused
      obtain ⟨entries, rfl, -⟩ := foldMembers_putVariable_eq_ok_iff.mp passed
      obtain ⟨other, rfl⟩ := decodeString_eq_error_iff.mp (Except.map_eq_error_iff.mp failed)
      exact .entry rfl other
    | _ =>
      cases refused
      exact .object rfl (by simp [Value.ofMembers, Value.ofString])
  · intro misfit
    cases misfit with
    | text field => simp [textFields] at field
    | flag field => simp at field
    | object _ other =>
      cases complete with
      | object => exact absurd rfl (other _)
      | _ => rfl
    | @entry entries name v later _ other =>
      refine (Json.foldMembers_eq_error_iff _ _ _).mpr
        ⟨textual entries, (name, v), later, _, rfl, foldMembers_putVariable .empty entries, ?_⟩
      exact Except.map_eq_error_iff.mpr (decodeString_eq_error_iff.mpr ⟨other, rfl⟩)

theorem Misfit.field {name : String} {v : Value} {e : DecodeError} (wrong : Misfit name v e) :
    name ∈ fieldNames := by
  cases wrong with
  | @text expected _ field =>
    have known : ∀ f ∈ textFields, f.1 ∈ fieldNames := by decide
    exact known (name, expected) field
  | flag field | object field | entry field => subst field; decide

theorem misfit_text_iff {name expected : String} (field : (name, expected) ∈ textFields) {v : Value}
    {e : DecodeError} : Misfit name v e ↔ v.decodeString expected = .error e := by
  have once : ∀ f ∈ textFields, ∀ g ∈ textFields, f.1 = g.1 → f = g := by decide
  have others : ∀ f ∈ textFields, f.1 ≠ "capture_stderr" ∧ f.1 ≠ "environment" := by decide
  obtain ⟨noFlag, noObject⟩ := others _ field
  rw [decodeString_eq_error_iff]
  constructor
  · rintro (⟨field', other⟩ | ⟨here, _⟩ | ⟨here, _⟩ | ⟨here, _⟩)
    · cases once _ field _ field' rfl
      exact ⟨other, rfl⟩
    · exact absurd here noFlag
    · exact absurd here noObject
    · exact absurd here noObject
  · rintro ⟨other, rfl⟩
    exact .text field other

theorem misfit_flag_iff {v : Value} {e : DecodeError} :
    Misfit "capture_stderr" v e ↔ v.decodeBoolean = .error e := by
  rw [decodeBoolean_eq_error_iff]
  constructor
  · rintro (field | ⟨_, other⟩ | field | field)
    · simp [textFields] at field
    · exact ⟨other, rfl⟩
    · simp at field
    · simp at field
  · rintro ⟨other, rfl⟩
    exact .flag rfl other

structure Draft.Holds (members : List (String × Value)) (d : Draft) : Prop where
  workingDirectory : Json.Holds (Value.decodeString "path string")
    (valuesOf "working_directory" members) d.workingDirectory
  program : Json.Holds (Value.decodeString "path string") (valuesOf "program" members) d.program
  arguments : Json.Holds (Value.decodeString "a string") (valuesOf "arguments" members) d.arguments
  environment : Json.Holds decodeEnvironment (valuesOf "environment" members) d.environment
  captureStderr :
    Json.Holds Value.decodeBoolean (valuesOf "capture_stderr" members) d.captureStderr

structure Takes (before : List (String × Value)) (m : String × Value) (result : Decoded Draft) :
    Prop where
  ok : ∀ d, result = .ok d → d.Holds (before ++ [m])
  error_iff : ∀ e, result = .error e ↔ Fault before m e

theorem takes_once {α : Type} {before : List (String × Value)} {name : String} {v : Value}
    {decode : Value → Decoded α} {old : Option α} {set : Option α → Draft}
    (misfit : ∀ e, Misfit name v e ↔ decode v = .error e) (field : name ∈ fieldNames)
    (holds : Json.Holds decode (valuesOf name before) old)
    (next : ∀ new, Json.Holds decode (valuesOf name before ++ [v]) new →
      (set new).Holds (before ++ [(name, v)])) :
    Takes before (name, v) ((once name old (decode v)).map set) := by
  have given : valuesOf name before ≠ [] ↔ name ∈ before.map Prod.fst := by
    rw [ne_eq, Json.valuesOf_eq_nil_iff, not_not]
  generalize valuesOf name before = values at holds next given
  cases holds with
  | nothing =>
    have first : name ∉ before.map Prod.fst := fun earlier => given.mpr earlier rfl
    refine ⟨fun d taken => ?_,
      fun e => Except.map_eq_error_iff.trans (Except.map_eq_error_iff.trans ?_)⟩
    · obtain ⟨new, held, rfl⟩ := Except.map_eq_ok_iff.mp taken
      obtain ⟨a, decoded, rfl⟩ := Except.map_eq_ok_iff.mp held
      exact next _ (.value decoded)
    · rw [← misfit]
      constructor
      · exact .misfit first
      · intro fault
        cases fault with
        | again _ earlier => exact absurd earlier first
        | misfit _ wrong => exact wrong
  | value =>
    have earlier : name ∈ before.map Prod.fst := given.mp (by simp)
    refine ⟨fun d taken => (by cases taken), fun e => ?_⟩
    constructor
    · intro refused
      cases refused
      exact .again field earlier
    · intro fault
      cases fault with
      | again => rfl
      | misfit first => exact absurd earlier first

theorem Draft.Holds.takes {before : List (String × Value)} {d : Draft} {name : String} {v : Value}
    (holds : d.Holds before) (complete : v.Complete) :
    Takes before (name, v) (d.put name v) := by
  obtain ⟨directory, program, arguments, environment, flag⟩ := holds
  unfold Draft.put
  split
  next here =>
    subst here
    refine takes_once (fun e => misfit_text_iff (by decide)) (by decide) directory fun new given => ?_
    constructor <;> simpa [Json.valuesOf_concat]
  split
  next here =>
    subst here
    refine takes_once (fun e => misfit_text_iff (by decide)) (by decide) program fun new given => ?_
    constructor <;> simpa [Json.valuesOf_concat]
  split
  next here =>
    subst here
    refine takes_once (fun e => misfit_text_iff (by decide)) (by decide) arguments fun new given => ?_
    constructor <;> simpa [Json.valuesOf_concat]
  split
  next here =>
    subst here
    refine takes_once (fun e => (decodeEnvironment_eq_error_iff complete).symm) (by decide)
      environment fun new given => ?_
    constructor <;> simpa [Json.valuesOf_concat]
  split
  next here =>
    subst here
    refine takes_once (fun e => misfit_flag_iff) (by decide) flag fun new given => ?_
    constructor <;> simpa [Json.valuesOf_concat]
  next =>
    have unknown : name ∉ fieldNames := by simp [fieldNames, *]
    rw [complete.skip]
    refine ⟨?_, fun e => iff_of_false (by simp [Except.map]) ?_⟩
    · rintro _ ⟨⟩
      constructor <;> simp [Json.valuesOf_concat, *]
    · intro fault
      cases fault with
      | again field => exact unknown field
      | misfit _ wrong => exact unknown wrong.field

def draft (members : List (String × Value)) : Decoded Draft :=
  foldMembers Draft.put .closed {} (written members)

theorem holds_draft {members : List (String × Value)} (complete : ∀ m ∈ members, m.2.Complete)
    {d : Draft} (taken : draft members = .ok d) : d.Holds members := by
  induction members using List.reverseRecOn generalizing d with
  | nil =>
    cases taken
    exact ⟨.nothing, .nothing, .nothing, .nothing, .nothing⟩
  | append_singleton members m ih =>
    rw [draft, Json.foldMembers_concat] at taken
    cases before : foldMembers Draft.put .closed {} (written members) with
    | error e => simp [before, Except.bind] at taken
    | ok b =>
      rw [before] at taken
      have holds := ih (fun n member => complete n (by simp [member])) before
      exact (holds.takes (complete m (by simp))).ok d taken

theorem draft_append (first later : List (String × Value)) :
    draft (first ++ later) =
      (draft first).bind fun d => foldMembers Draft.put .closed d (written later) :=
  Json.foldMembers_append _ _ _

/-- Before a member that is at fault all are taken. -/
theorem draft_eq_error {members : List (String × Value)} (complete : ∀ m ∈ members, m.2.Complete)
    {e : DecodeError} (refused : draft members = .error e) :
    ∃ before m later d, members = before ++ m :: later ∧ draft before = .ok d ∧
      Fault before m e := by
  obtain ⟨before, m, later, d, rfl, taken, refused⟩ :=
    (Json.foldMembers_eq_error_iff _ _ _).mp refused
  have holds := holds_draft (fun n member => complete n (by simp [member])) taken
  exact ⟨before, m, later, d, rfl, taken,
    ((holds.takes (complete m (by simp))).error_iff e).mp refused⟩

theorem faultless_iff {members : List (String × Value)} (complete : ∀ m ∈ members, m.2.Complete) :
    Faultless members ↔ ∃ d, draft members = .ok d := by
  constructor
  · intro faultless
    cases taken : draft members with
    | ok d => exact ⟨d, rfl⟩
    | error e =>
      obtain ⟨before, m, later, -, split, -, fault⟩ := draft_eq_error complete taken
      exact absurd fault (faultless before m later e split)
  · rintro ⟨d, taken⟩ before m later e rfl fault
    rw [draft_append] at taken
    cases first : draft before with
    | error => simp [first, Except.bind] at taken
    | ok b =>
      have holds := holds_draft (fun n member => complete n (by simp [member])) first
      have refused := ((holds.takes (complete m (by simp))).error_iff e).mpr fault
      simp [first, Except.bind, written, foldMembers, refused] at taken

theorem draft_eq_error_iff {members : List (String × Value)}
    (complete : ∀ m ∈ members, m.2.Complete) {e : DecodeError} :
    draft members = .error e ↔ ∃ before m later, members = before ++ m :: later ∧
      Faultless before ∧ Fault before m e := by
  constructor
  · intro refused
    obtain ⟨before, m, later, d, rfl, taken, fault⟩ := draft_eq_error complete refused
    have faultless := (faultless_iff fun n member => complete n (by simp [member])).mpr ⟨d, taken⟩
    exact ⟨before, m, later, rfl, faultless, fault⟩
  · rintro ⟨before, m, later, rfl, faultless, fault⟩
    have earlier : ∀ n ∈ before, n.2.Complete := fun n member => complete n (by simp [member])
    obtain ⟨d, taken⟩ := (faultless_iff earlier).mp faultless
    have refused :=
      (((holds_draft earlier taken).takes (complete m (by simp))).error_iff e).mpr fault
    exact (Json.foldMembers_eq_error_iff _ _ _).mpr ⟨before, m, later, d, rfl, taken, refused⟩

theorem eq_of_holds_text {expected : String} {values : List Value} {x : Option String}
    (holds : Json.Holds (Value.decodeString expected) values x) :
    values = (x.map Value.ofString).toList := by
  cases holds with
  | nothing => rfl
  | value decoded => simp [decodeString_eq_ok_iff.mp decoded]

namespace Draft.Holds

variable {members : List (String × Value)} {d : Draft}

theorem finish_eq_error_iff (holds : d.Holds members) {e : DecodeError} :
    d.finish = .error e ↔
      "working_directory" ∉ members.map Prod.fst ∧ e = .missingField "working_directory" ∨
        "working_directory" ∈ members.map Prod.fst ∧ "program" ∉ members.map Prod.fst ∧
          e = .missingField "program" := by
  have directory := eq_of_holds_text holds.workingDirectory
  have program := eq_of_holds_text holds.program
  rw [← not_not (a := "working_directory" ∈ members.map Prod.fst), ← Json.valuesOf_eq_nil_iff,
    ← Json.valuesOf_eq_nil_iff, directory, program, Draft.finish]
  cases d.workingDirectory <;> cases d.program <;> simp [eq_comm]

theorem describes (complete : ∀ m ∈ members, m.2.Complete) (holds : d.Holds members) {s : Settings}
    (finished : d.finish = .ok s) : Describes members s := by
  have directory := eq_of_holds_text holds.workingDirectory
  have program := eq_of_holds_text holds.program
  have arguments := eq_of_holds_text holds.arguments
  unfold Draft.finish at finished
  split at finished
  next => cases finished
  next => cases finished
  next here there =>
    cases finished
    rw [here] at directory
    rw [there] at program
    refine ⟨directory, program, ?_, ?_, ?_⟩
    · cases given : d.arguments with
      | none => exact .inl ⟨by rw [arguments, given]; rfl, rfl⟩
      | some text => exact .inr (by rw [arguments, given]; rfl)
    · have environment := holds.environment
      have inside : ∀ v ∈ valuesOf "environment" members, v.Complete := by
        intro v member
        obtain ⟨m, named, rfl⟩ := List.mem_map.mp member
        exact complete m (List.mem_filter.mp named).1
      generalize valuesOf "environment" members = values, d.environment = held at environment inside ⊢
      cases environment with
      | nothing => exact .inl ⟨rfl, rfl⟩
      | value decoded =>
        obtain ⟨entries, rfl, rfl⟩ :=
          (decodeEnvironment_eq_ok_iff (inside _ (by simp))).mp decoded
        refine .inr ⟨entries, rfl, fun name => ?_⟩
        rw [Option.getD_some, Environment.ofList, Environment.get?_foldl, Environment.empty]
        exact Option.or_none
    · have flag := holds.captureStderr
      generalize valuesOf "capture_stderr" members = values, d.captureStderr = held at flag ⊢
      cases flag with
      | nothing => exact .inl ⟨rfl, rfl⟩
      | value decoded => exact .inr (by rw [decodeBoolean_eq_ok_iff.mp decoded]; rfl)

end Draft.Holds

namespace Describes

variable {members : List (String × Value)} {s t : Settings}

/-- No field is given twice, or with a value of the wrong type. -/
theorem sound (describes : Describes members s) {name : String} (field : name ∈ fieldNames) :
    (valuesOf name members).length ≤ 1 ∧
      ∀ v ∈ valuesOf name members, ∀ e, ¬Misfit name v e := by
  have fits : ∀ f ∈ textFields, ∀ text e, ¬Misfit f.1 (.ofString text) e := by
    intro f field text e
    rw [misfit_text_iff field]
    simp [Value.decodeString, Value.ofString]
  simp only [fieldNames, List.mem_cons, List.not_mem_nil, or_false] at field
  rcases field with rfl | rfl | rfl | rfl | rfl
  · simp [describes.workingDirectory, fits ("working_directory", "path string") (by decide)]
  · simp [describes.program, fits ("program", "path string") (by decide)]
  · rcases describes.arguments with ⟨given, _⟩ | given
    · simp [given]
    · simp [given, fits ("arguments", "a string") (by decide)]
  · rcases describes.environment with ⟨given, _⟩ | ⟨entries, given, _⟩
    · simp [given]
    · have complete := complete_textual entries
      have decoded := (decodeEnvironment_eq_ok_iff complete).mpr ⟨entries, rfl, rfl⟩
      simp [given, ← decodeEnvironment_eq_error_iff complete, decoded]
  · rcases describes.captureStderr with ⟨given, _⟩ | given
    · simp [given]
    · simp [given, misfit_flag_iff, Value.decodeBoolean]

theorem faultless (describes : Describes members s) : Faultless members := by
  rintro before ⟨name, v⟩ later e rfl fault
  have values : valuesOf name (before ++ (name, v) :: later) =
      valuesOf name before ++ v :: valuesOf name later := by
    rw [List.append_cons, Json.valuesOf_append, Json.valuesOf_concat, if_pos rfl, List.append_assoc]
    rfl
  cases fault with
  | again field given =>
    have short := (describes.sound field).1
    have some := (Json.valuesOf_eq_nil_iff name before).not.mpr (not_not.mpr given)
    have more := List.length_pos_iff.mpr some
    simp [values] at short
    omega
  | misfit _ wrong =>
    exact (describes.sound wrong.field).2 v (by simp [values]) e wrong

theorem eq (describes : Describes members s) (describes' : Describes members t) : s = t := by
  obtain ⟨directory, program, arguments, environment, flag⟩ := describes
  obtain ⟨directory', program', arguments', environment', flag'⟩ := describes'
  cases s
  cases t
  rw [Settings.mk.injEq]
  refine ⟨?_, ?_, ?_, Environment.ext_get? fun name => ?_, ?_⟩
  · simpa [directory, Value.ofString] using directory'
  · simpa [program, Value.ofString] using program'
  · rcases arguments with ⟨given, rfl⟩ | given
    · simpa [given, eq_comm] using arguments'
    · simpa [given, Value.ofString] using arguments'
  · rcases environment with ⟨given, rfl⟩ | ⟨entries, given, same⟩
    · obtain rfl := by simpa [given] using environment'
      rfl
    · obtain ⟨entries', given', same'⟩ := by simpa [given] using environment'
      obtain rfl := textual_inj.mp (Json.ofMembers_inj.mp given')
      exact (same name).trans (same' name).symm
  · rcases flag with ⟨given, rfl⟩ | given
    · simpa [given, eq_comm] using flag'
    · simpa [given] using flag'

/-- The order of the members does not count. -/
theorem perm {others : List (String × Value)} (describes : Describes members s)
    (perm : others.Perm members) : Describes others s := by
  have same {name : String} (field : name ∈ fieldNames) :
      valuesOf name others = valuesOf name members := by
    have values : (valuesOf name others).Perm (valuesOf name members) :=
      (perm.filter _).map Prod.snd
    have short := (describes.sound field).1
    generalize valuesOf name members = held at values short
    match held, short with
    | [], _ => exact values.eq_nil
    | [v], _ => exact List.perm_singleton.mp values
  obtain ⟨directory, program, arguments, environment, flag⟩ := describes
  constructor <;> rw [same (by decide)] <;> assumption

end Describes

theorem ofJson_ofMembers (members : List (String × Value)) :
    ofJson (.ofMembers members) = (draft members).bind Draft.finish := rfl

theorem ofJson_eq_error_iff {members : List (String × Value)}
    (complete : ∀ m ∈ members, m.2.Complete) {e : DecodeError} :
    ofJson (.ofMembers members) = .error e ↔ Refused members e := by
  rw [ofJson_ofMembers]
  cases taken : draft members with
  | error e' =>
    have found := draft_eq_error_iff (e := e) complete
    rw [taken, Except.error.injEq] at found
    rw [Except.bind, Except.error.injEq, found]
    constructor
    · rintro ⟨before, m, later, split, faultless, fault⟩
      exact .fault split faultless fault
    · intro refused
      cases refused with
      | fault split faultless fault => exact ⟨_, _, _, split, faultless, fault⟩
      | noDirectory faultless | noProgram faultless =>
        obtain ⟨d, taken'⟩ := (faultless_iff complete).mp faultless
        simp [taken] at taken'
  | ok d =>
    have faultless := (faultless_iff complete).mpr ⟨d, taken⟩
    refine (holds_draft complete taken).finish_eq_error_iff.trans ?_
    constructor
    · rintro (⟨missing, rfl⟩ | ⟨given, missing, rfl⟩)
      · exact .noDirectory faultless missing
      · exact .noProgram faultless given missing
    · intro refused
      cases refused with
      | fault split _ fault => exact absurd fault (faultless _ _ _ _ split)
      | noDirectory _ missing => exact .inl ⟨missing, rfl⟩
      | noProgram _ given missing => exact .inr ⟨given, missing, rfl⟩

theorem ofJson_eq_ok_iff {members : List (String × Value)}
    (complete : ∀ m ∈ members, m.2.Complete) {s : Settings} :
    ofJson (.ofMembers members) = .ok s ↔ Describes members s := by
  have sound {t : Settings} (decoded : ofJson (.ofMembers members) = .ok t) :
      Describes members t := by
    rw [ofJson_ofMembers] at decoded
    cases taken : draft members with
    | error => simp [taken, Except.bind] at decoded
    | ok d =>
      rw [taken] at decoded
      exact (holds_draft complete taken).describes complete decoded
  refine ⟨sound, fun describes => ?_⟩
  cases decoded : ofJson (.ofMembers members) with
  | ok t => rw [(sound decoded).eq describes]
  | error e =>
    have given {name : String} {v : Value} (value : valuesOf name members = [v]) :
        name ∈ members.map Prod.fst := by
      rw [← not_not (a := name ∈ _), ← Json.valuesOf_eq_nil_iff, value]
      simp
    cases (ofJson_eq_error_iff complete).mp decoded with
    | fault split _ fault => exact absurd fault (describes.faultless _ _ _ _ split)
    | noDirectory _ missing => exact absurd (given describes.workingDirectory) missing
    | noProgram _ _ missing => exact absurd (given describes.program) missing

def known (members : List (String × Value)) : List (String × Value) :=
  members.filter fun m => m.1 ∈ fieldNames

theorem Draft.put_of_not_mem (d : Draft) {name : String} {v : Value} (complete : v.Complete)
    (unknown : name ∉ fieldNames) : d.put name v = .ok d := by
  simp only [fieldNames, List.mem_cons, List.not_mem_nil, or_false, not_or] at unknown
  obtain ⟨directory, program, arguments, environment, flag⟩ := unknown
  rw [Draft.put, if_neg directory, if_neg program, if_neg arguments, if_neg environment,
    if_neg flag, complete.skip]
  rfl

/-- Members that are no fields are passed over. -/
theorem foldMembers_known {members : List (String × Value)}
    (complete : ∀ m ∈ members, m.2.Complete) (d : Draft) :
    foldMembers Draft.put .closed d (written members) =
      foldMembers Draft.put .closed d (written (known members)) := by
  induction members generalizing d with
  | nil => rfl
  | cons m members ih =>
    have later := ih fun n member => complete n (List.mem_cons_of_mem m member)
    by_cases field : m.1 ∈ fieldNames
    · rw [known, List.filter_cons_of_pos (by simpa using field)]
      simp only [written, List.map_cons, foldMembers]
      cases d.put m.1 m.2 with
      | error e => rfl
      | ok d => exact later d
    · rw [known, List.filter_cons_of_neg (by simpa using field)]
      simp only [written, List.map_cons, foldMembers,
        d.put_of_not_mem (complete m (by simp)) field]
      exact later d

/-- An object is settings if its members describe some. Neither their order counts then nor members
that are no fields. What is wrong with other objects is what is wrong first. -/
theorem ofMembers_decoded {members : List (String × Value)}
    (complete : ∀ m ∈ members, m.2.Complete) :
    (∀ s, ofJson (.ofMembers members) = .ok s ↔ Describes members s) ∧
      (∀ e, ofJson (.ofMembers members) = .error e ↔ Refused members e) ∧
      (∀ others s, others.Perm members → ofJson (.ofMembers members) = .ok s →
        ofJson (.ofMembers others) = .ok s) ∧
      ∀ others, (∀ m ∈ others, m.2.Complete) → known others = known members →
        ofJson (.ofMembers others) = ofJson (.ofMembers members) := by
  refine ⟨fun s => ofJson_eq_ok_iff complete, fun e => ofJson_eq_error_iff complete,
    fun others s perm decoded => ?_, fun others complete' same => ?_⟩
  · have describes := (ofJson_eq_ok_iff complete).mp decoded
    have complete' : ∀ m ∈ others, m.2.Complete := fun m member => complete m (perm.subset member)
    exact (ofJson_eq_ok_iff complete').mpr (describes.perm perm)
  · rw [ofJson_ofMembers, ofJson_ofMembers, draft, draft, foldMembers_known complete,
      foldMembers_known complete', same]

/-- Fields in some order, with a member that is none and a variable that is given twice. A field that
is given again is refused as such, although `null` is no text either. -/
theorem ofMembers_decoded_again :
    let members : List (String × Value) :=
      [("program", .ofString "p"), ("note", .array [.null] .closed),
        ("environment", .ofMembers (textual [("A", "1"), ("A", "2")])),
        ("working_directory", .ofString "d")]
    (∀ m ∈ members ++ [("program", .null)], m.2.Complete) ∧
      ofJson (.ofMembers members) =
        .ok { workingDirectory := "d", program := "p", environment := .ofList [("A", "2")] } ∧
      ofJson (.ofMembers (members ++ [("program", .null)])) = .error (.duplicateField "program") := by
  intro members
  have complete : ∀ m ∈ members ++ [("program", .null)], m.2.Complete := by
    have items : ∀ v ∈ [Value.null], v.Complete := by simp [Value.Complete.null]
    simp [members, Value.Complete.null, Value.Complete.string, Value.Complete.array items,
      complete_textual]
  have first : ∀ m ∈ members, m.2.Complete := fun m member => complete m (by simp [member])
  have describes : Describes members
      { workingDirectory := "d", program := "p", environment := .ofList [("A", "2")] } :=
    ⟨rfl, rfl, .inl ⟨rfl, rfl⟩, .inr ⟨_, rfl, fun name => by
      rw [Environment.ofList, Environment.get?_foldl]
      by_cases here : name = "A" <;>
        simp [Environment.lookup_cons, Environment.get?, Environment.empty, here]⟩,
      .inl ⟨rfl, rfl⟩⟩
  refine ⟨complete, ((ofMembers_decoded first).1 _).mpr describes,
    ((ofMembers_decoded complete).2.1 _).mpr ?_⟩
  exact .fault rfl describes.faultless (.again (by decide) (by decide))

end Overseer.Settings
