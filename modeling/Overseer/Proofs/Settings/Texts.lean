import Overseer.Lifecycle.Json
import Overseer.ProcessInfo
import Overseer.Proofs.Json.Values
import Overseer.Proofs.Settings.Overrides
import Overseer.Settings.Json

/-!
Settings, states and what is known of a process, as they are written and read back. A decoder takes
more texts than are ever written; whichever it takes, the text that is written from it stands for
the same thing, and only for that.
-/
namespace Overseer

namespace Json

variable {α : Type}

/-- The text that a text is written as once it has been decoded. -/
def rewrite (toJson : α → Value) (ofJson : Value → Decoded α) (text : String) : Decoded String :=
  (decodeText ofJson text).map fun a => (toJson a).render

/-- Nothing is lost in a text. -/
structure Faithful (toJson : α → Value) (ofJson : Value → Decoded α) : Prop where
  readBack : ∀ a, decodeText ofJson (toJson a).render = .ok a
  settled : ∀ text text', rewrite toJson ofJson text = .ok text' →
    rewrite toJson ofJson text' = .ok text'
  distinct : ∀ a b, (toJson a).render = (toJson b).render → a = b

theorem faithful {toJson : α → Value} {ofJson : Value → Decoded α}
    (complete : ∀ a, (toJson a).Complete) (decoded : ∀ a, ofJson (toJson a) = .ok a) :
    Faithful toJson ofJson := by
  have readBack (a : α) : decodeText ofJson (toJson a).render = .ok a := by
    rw [decodeText_render ofJson (complete a), decoded]
  refine ⟨readBack, fun text text' written => ?_, fun a b same => ?_⟩
  · cases read : decodeText ofJson text with
    | error e =>
      rw [rewrite, read] at written
      cases written
    | ok a =>
      rw [rewrite, read] at written
      obtain rfl : (toJson a).render = text' := Except.ok.inj written
      rw [rewrite, readBack]
      rfl
  · have read := readBack a
    rw [same, readBack] at read
    exact (Except.ok.inj read).symm

theorem decodeInteger_ofInt {least greatest i : Int} (expected : String)
    (wide : -(2 ^ 63) ≤ i ∧ i ≤ greatest64) (within : least ≤ i ∧ i ≤ greatest) :
    (Value.ofInt i).decodeInteger least greatest expected = .ok i := by
  simp only [Value.ofInt, Value.decodeInteger, Number.integer?_ofInt wide.1 wide.2]
  rw [if_pos (by simpa using within)]

def Value.member? (name : String) : Value → Option Value
  | .object members _ => (members.find? fun m => m.1 = .text name).map Prod.snd
  | _ => none

end Json

namespace Environment

theorem Ascending.nodup {entries : List Variable} (ascending : Ascending entries) :
    (entries.map Prod.fst).Nodup :=
  List.pairwise_map.mpr (ascending.imp ne_of_precedes)

/-- A variable that comes after all others is put at the end. -/
theorem insertEntry_last {entries : List Variable} {name : String} (value : String)
    (last : ∀ e ∈ entries, precedes e.1 name) :
    insertEntry name value entries = entries ++ [(name, value)] := by
  induction entries with
  | nil => rfl
  | cons entry entries ih =>
    have before : precedes entry.1 name := last entry (by simp)
    rw [insertEntry, if_neg (ne_of_precedes before), if_pos before,
      ih fun e member => last e (List.mem_cons_of_mem entry member)]
    rfl

theorem foldl_insert_ascending (e : Environment) {later : List Variable}
    (ascending : Ascending (e.entries ++ later)) :
    (later.foldl (fun e v => e.insert v.1 v.2) e).entries = e.entries ++ later := by
  induction later generalizing e with
  | nil => simp
  | cons v later ih =>
    have last : (e.insert v.1 v.2).entries = e.entries ++ [v] :=
      insertEntry_last v.2 fun entry member =>
        (List.pairwise_append.mp ascending).2.2 entry member v (by simp)
    have appended : e.entries ++ v :: later = (e.insert v.1 v.2).entries ++ later := by
      rw [last, List.append_assoc, List.singleton_append]
    rw [appended] at ascending ⊢
    exact ih (e.insert v.1 v.2) ascending

theorem ofList_entries (e : Environment) : ofList e.entries = e := by
  have same : (ofList e.entries).entries = e.entries := foldl_insert_ascending empty e.ascending
  cases e
  rw [Environment.mk.injEq]
  exact same

end Environment

namespace Settings

theorem foldMembers_putVariable (e : Environment) (entries : List Variable) :
    Json.foldMembers putVariable .closed e
        (Json.written (entries.map fun v => (v.1, .ofString v.2))) =
      .ok (entries.foldl (fun e v => e.insert v.1 v.2) e) := by
  induction entries generalizing e with
  | nil => rfl
  | cons v entries ih => exact ih (e.insert v.1 v.2)

theorem decodeEnvironment_written (e : Environment) :
    decodeEnvironment (.ofMembers (e.entries.map fun v => (v.1, .ofString v.2))) = .ok e :=
  (foldMembers_putVariable .empty e.entries).trans (congrArg _ e.ofList_entries)

/-- Each field is met once, in its place. -/
theorem ofJson_toJson (s : Settings) : ofJson s.toJson = .ok s := by
  have environment := decodeEnvironment_written s.environment
  rw [toJson]
  generalize Json.Value.ofMembers (s.environment.entries.map fun v => (v.1, .ofString v.2)) = v
    at environment ⊢
  simp [ofJson, shape, Json.Shape.decode, Json.Value.ofMembers, Json.foldMembers, Draft.put, once,
    Json.Value.ofString, Json.Value.decodeString, Json.Value.decodeBoolean, environment,
    Json.Ending.fault?, Except.map, Except.bind, Draft.finish]

theorem complete_toJson (s : Settings) : s.toJson.Complete := by
  refine .object fun m member => ?_
  simp only [List.mem_cons, List.not_mem_nil, or_false] at member
  rcases member with rfl | rfl | rfl | rfl | rfl
  · exact .string _
  · exact .string _
  · exact .string _
  · refine .object fun m member => ?_
    obtain ⟨v, _, rfl⟩ := List.mem_map.mp member
    exact .string v.2
  · exact .boolean _

end Settings

namespace ProcessInfo

theorem decodeId_written (id : UInt32) : decodeId (.ofInt id.toNat) = .ok id := by
  have small := id.toNat_lt
  have greatest : (greatest32 : Int) = 2 ^ 32 - 1 := rfl
  have wide : (greatest64 : Int) = 2 ^ 64 - 1 := rfl
  rw [decodeId, Json.decodeInteger_ofInt "u32" ⟨by omega, by omega⟩ ⟨by omega, by omega⟩]
  simp [Except.map]

theorem decodeExitCode_written (code : Int32) :
    decodeExitCode (.ofInt code.toInt) = .ok (some code) := by
  have least := code.le_toInt
  have most := code.toInt_lt
  have wide : (greatest64 : Int) = 2 ^ 64 - 1 := rfl
  have decoded : (Json.Value.ofInt code.toInt).decodeInteger (-2147483648) 2147483647 "i32" =
      .ok code.toInt :=
    Json.decodeInteger_ofInt "i32" ⟨by omega, by omega⟩ ⟨by omega, by omega⟩
  rw [Json.Value.ofInt] at decoded
  simp [decodeExitCode, Json.Value.ofInt, Json.Value.decodeOptional, decoded, Except.map]

theorem ofJson_toJson (p : ProcessInfo) : ofJson p.toJson = .ok p := by
  obtain ⟨id, _ | code⟩ := p
  · simp [toJson, ofJson, shape, Json.Shape.decode, Json.Value.ofMembers, Json.foldMembers,
      Draft.put, decodeId_written, decodeExitCode, Json.Value.decodeOptional, Json.Ending.fault?,
      Except.map, Except.bind, Draft.finish]
  · simp [toJson, ofJson, shape, Json.Shape.decode, Json.Value.ofMembers, Json.foldMembers,
      Draft.put, decodeId_written, decodeExitCode_written, Json.Ending.fault?, Except.map,
      Except.bind, Draft.finish]

theorem complete_toJson (p : ProcessInfo) : p.toJson.Complete := by
  refine .object fun m member => ?_
  simp only [List.mem_cons, List.not_mem_nil, or_false] at member
  rcases member with rfl | rfl
  · exact .integer _
  · obtain ⟨id, _ | code⟩ := p
    · exact .null
    · exact .integer _

end ProcessInfo

namespace State

theorem ofJson_toJson (s : State) : ofJson s.toJson = .ok s := by
  cases s <;> rfl

end State

namespace Json

/-- Settings, states and what is known of a process are read back as they were written. The
variables of the settings are written in the order of their names, and none of them twice. -/
theorem texts_faithful :
    Faithful Settings.toJson Settings.ofJson ∧
      Faithful State.toJson State.ofJson ∧
      Faithful ProcessInfo.toJson ProcessInfo.ofJson ∧
      ∀ s : Settings, ∃ entries : List Variable,
        (read s.toJson.render).1.member? "environment" =
            some (.ofMembers (entries.map fun v => (v.1, .ofString v.2))) ∧
          (entries.Pairwise fun a b => bytesBefore (Utf8.encode a.1) (Utf8.encode b.1)) ∧
          (entries.map Prod.fst).Nodup := by
  refine ⟨faithful Settings.complete_toJson Settings.ofJson_toJson,
    faithful (fun s => .string s.name) State.ofJson_toJson,
    faithful ProcessInfo.complete_toJson ProcessInfo.ofJson_toJson, fun s => ?_⟩
  refine ⟨s.environment.entries, ?_, s.environment.ascending, s.environment.ascending.nodup⟩
  rw [read_render s.complete_toJson]
  simp [Settings.toJson, Value.ofMembers, Value.member?]

end Json

end Overseer
