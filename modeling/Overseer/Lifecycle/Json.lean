import Overseer.Json.Decoder
import Overseer.Json.Writer
import Overseer.Lifecycle

/-!
States as JSON: a string that holds the name, or an object whose only member has that name and the
value null.
-/
namespace Overseer.State

def ofVariant (name : String) : Json.Decoded State :=
  match ofName? name with
  | some s => .ok s
  | none => .error (.unknownVariant name (all.map State.name))

/-- The name is decided on before anything after it is looked at. -/
def ofJson : Json.Value → Json.Decoded State
  | .string (.text name) => ofVariant name
  | .object [] ending =>
    match ending.fault? with
    | none => .error Json.malformed
    | some b => .error b.error
  | .object ((.unpaired, _) :: _) _ => .error Json.malformed
  | .object ((.text name, v) :: more) ending =>
    match ofVariant name with
    | .error e => .error e
    | .ok s =>
      match v.decodeUnit, more, ending with
      | .error e, _, _ => .error e
      | .ok _, [], .closed => .ok s
      | .ok _, [], .cut b => .error b.error
      | .ok _, _, _ => .error Json.malformed
  -- A name that is no string is a fault of the text. It is not told of as a value of another type.
  | .misnamed => .error Json.malformed
  | .cutString b => .error b.error
  | .absent => .error (.faulty .truncated)
  | _ => .error Json.malformed

def toJson (s : State) : Json.Value := .ofString s.name

end Overseer.State
