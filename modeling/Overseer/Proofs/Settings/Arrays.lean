import Overseer.Proofs.Json.Arrays
import Overseer.Proofs.Settings.Objects

/-!
Settings, and what is known of a process, as arrays of their fields. An array is taken as the object
that gives its items to the fields in order, if it gives the fields that are required: these are not
the fields that an object must give, of which a process has only one.
-/
namespace Overseer

open Json (Value Positional written complete_zip)

namespace Settings

def Fits (name : String) (v : Value) : Prop :=
  v.Complete ∧ ∀ e, ¬Misfit name v e

theorem fits_text (f : String × String) (field : f ∈ textFields) (s : String) :
    Fits f.1 (.ofString s) := by
  refine ⟨.string s, fun e => ?_⟩
  simp [misfit_text_iff field, Value.decodeString, Value.ofString]

theorem fits_environment (entries : List Variable) :
    Fits "environment" (.ofMembers (textual entries)) := by
  have complete := complete_textual entries
  have decoded := (decodeEnvironment_eq_ok_iff complete).mpr ⟨entries, rfl, rfl⟩
  refine ⟨complete, fun e => ?_⟩
  simp [← decodeEnvironment_eq_error_iff complete, decoded]

theorem fits_captureStderr (b : Bool) : Fits "capture_stderr" (.boolean b) := by
  refine ⟨.boolean b, fun e => ?_⟩
  simp [misfit_flag_iff, Value.decodeBoolean]

/-- Every field is given to at most one item. -/
theorem nodup_zip (items : List Value) : ((fieldNames.zip items).map Prod.fst).Nodup := by
  have once : fieldNames.Nodup := by decide
  rw [List.zip_eq_zip_take_min, List.map_fst_zip (by simp)]
  exact once.sublist (List.take_sublist _ _)

theorem faultless_zip {items : List Value} (fit : ∀ m ∈ fieldNames.zip items, Fits m.1 m.2) :
    Faultless (fieldNames.zip items) := by
  rintro before m later e split fault
  have once := nodup_zip items
  have member : m ∈ fieldNames.zip items := by simp [split]
  rw [split, List.map_append, List.map_cons] at once
  cases fault with
  | again _ given => exact (List.nodup_append.mp once).2.2 _ given _ (by simp) rfl
  | misfit _ wrong => exact (fit _ member).2 e wrong

theorem positional :
    Positional ofJson fieldNames 2 "struct SupervisorSettings with 5 elements" Fits :=
  shape.positional (by decide) fun items fit =>
    (faultless_iff fun m member => (fit m member).1).mp (faultless_zip fit)

end Settings

namespace ProcessInfo

inductive Fits (name : String) : Value → Prop
  | id {n : Json.Number} {i : Int} (field : name = "id") (whole : n.integer? = some i)
      (within : 0 ≤ i ∧ i < 2 ^ 32) : Fits name (.number n)
  | running (field : name = "exit_code") : Fits name .null
  | exited {n : Json.Number} {i : Int} (field : name = "exit_code") (whole : n.integer? = some i)
      (within : -2 ^ 31 ≤ i ∧ i < 2 ^ 31) : Fits name (.number n)

theorem Fits.decodeId {v : Value} (fits : Fits "id" v) : ∃ id, decodeId v = .ok id := by
  cases fits with
  | running field | exited field => simp at field
  | @id n i _ whole within =>
    have greatest : (greatest32 : Int) = 2 ^ 32 - 1 := rfl
    have inside : (0 ≤ i && i ≤ greatest32) = true := by simp; omega
    refine ⟨i.toNat.toUInt32, ?_⟩
    simp only [ProcessInfo.decodeId, Value.decodeInteger, whole, inside, if_true]
    rfl

theorem Fits.decodeExitCode {v : Value} (fits : Fits "exit_code" v) :
    ∃ code, decodeExitCode v = .ok code := by
  cases fits with
  | id field => simp at field
  | running => exact ⟨none, rfl⟩
  | @exited n i _ whole within =>
    have inside : ((-2147483648 : Int) ≤ i && i ≤ 2147483647) = true := by simp; omega
    refine ⟨some (.ofInt i), ?_⟩
    simp only [ProcessInfo.decodeExitCode, Value.decodeOptional, Value.decodeInteger, whole, inside,
      if_true]
    rfl

theorem positional : Positional ofJson ["id", "exit_code"] 2 "struct ProcessInfo with 2 elements"
    Fits := by
  refine shape.positional (by decide) fun items fit => ?_
  match items, fit with
  | [], _ => exact ⟨{}, rfl⟩
  | [v], fit =>
    obtain ⟨id, decoded⟩ := (fit ("id", v) (by simp [shape])).decodeId
    exact ⟨{ id := some id }, by
      simp [Json.Shape.taken, shape, written, Json.foldMembers, Draft.put, decoded, Except.map,
        Json.Ending.fault?]⟩
  | v :: w :: items, fit =>
    obtain ⟨id, decoded⟩ := (fit ("id", v) (by simp [shape])).decodeId
    obtain ⟨code, decoded'⟩ := (fit ("exit_code", w) (by simp [shape])).decodeExitCode
    exact ⟨{ id := some id, exitCode := some code }, by
      simp [Json.Shape.taken, shape, written, Json.foldMembers, Draft.put, decoded, decoded',
        Except.map, Json.Ending.fault?]⟩

/-- An object need not give an exit code. -/
theorem ofJson_id {v : Value} (fits : Fits "id" v) :
    ∃ id, ofJson (.ofMembers [("id", v)]) = .ok ⟨id, none⟩ := by
  obtain ⟨id, decoded⟩ := fits.decodeId
  refine ⟨id, ?_⟩
  simp [ofJson, shape, Json.Shape.decode, Value.ofMembers, Json.foldMembers, Draft.put, decoded,
    Json.Ending.fault?, Except.map, Except.bind, Draft.finish]

end ProcessInfo

/-- Arrays of at least two fields are taken as objects with these fields are, be it as a value or
with an error. With fewer fields they are refused for their length, with more than there are for the
text; for a process that holds also where the object would be taken. -/
theorem arrays_decoded :
    Positional Settings.ofJson
        ["working_directory", "program", "arguments", "environment", "capture_stderr"] 2
        "struct SupervisorSettings with 5 elements" Settings.Fits ∧
      Positional ProcessInfo.ofJson ["id", "exit_code"] 2 "struct ProcessInfo with 2 elements"
        ProcessInfo.Fits ∧
      ∀ v, ProcessInfo.Fits "id" v →
        (∃ id, ProcessInfo.ofJson (.ofMembers [("id", v)]) = .ok ⟨id, none⟩) ∧
          ProcessInfo.ofJson (.array [v] .closed) =
            .error (.wrongLength 1 "struct ProcessInfo with 2 elements") := by
  refine ⟨Settings.positional, ProcessInfo.positional,
    fun v fits => ⟨ProcessInfo.ofJson_id fits, ?_⟩⟩
  exact ProcessInfo.positional.few [v] (by simp) (by simpa using fits)

/-- The second item is wrong, and the third, which is so too, is not looked at. An array of one text
is too short, and one of five fields and a `null` too long. An id alone is enough in an object. -/
theorem arrays_decoded_refused :
    let wrong : List Value := [.ofString "d", .null, .null]
    let long : List Value := [.ofString "d", .ofString "p", .ofString "-a",
      .ofMembers (Settings.textual [("A", "1")]), .boolean true, .null]
    Settings.ofJson (.array wrong .closed) = .error (.wrongType .null "path string") ∧
      Settings.ofJson (.ofMembers [("working_directory", .ofString "d"), ("program", .null),
        ("arguments", .null)]) = .error (.wrongType .null "path string") ∧
      Settings.ofJson (.array [.ofString "d"] .closed) =
        .error (.wrongLength 1 "struct SupervisorSettings with 5 elements") ∧
      Settings.ofJson (.array long .closed) = .error Json.malformed ∧
      ∃ id, ProcessInfo.ofJson (.ofMembers [("id", .ofInt 7)]) = .ok ⟨id, none⟩ := by
  intro wrong long
  obtain ⟨settings, _, process⟩ := arrays_decoded
  have second : Settings.ofJson (.ofMembers [("working_directory", .ofString "d"),
      ("program", .null), ("arguments", .null)]) = .error (.wrongType .null "path string") := rfl
  have directory := Settings.fits_text ("working_directory", "path string") (by decide) "d"
  have program := Settings.fits_text ("program", "path string") (by decide) "p"
  have arguments := Settings.fits_text ("arguments", "a string") (by decide) "-a"
  have environment := Settings.fits_environment [("A", "1")]
  refine ⟨(settings.same wrong (by decide) (by decide)).trans second, second,
    settings.few [.ofString "d"] (by decide) (by simpa using directory),
    settings.many long (by decide) ?_, (process (.ofInt 7) ?_).1⟩
  · simpa [long] using
      ⟨directory, program, arguments, environment, Settings.fits_captureStderr true⟩
  · exact .id rfl (Json.Number.integer?_ofInt (by decide) (by decide)) (by decide)

end Overseer
