import SchemaCatalog.Json.Event

namespace SchemaCatalog.Json

/-- A container that is still open, with what it holds so far, last first. -/
inductive Frame where
  | items (done : List Json)
  | members (done : List (String × Json)) (key : Option String)

/-- Puts a finished value into the innermost open container. -/
def place (value : Json) : List Frame → List Frame × Option Json
  | [] => ([], some value)
  | .items done :: frames => (.items (value :: done) :: frames, none)
  | .members done key :: frames => (.members ((key.getD "", value) :: done) none :: frames, none)

/-- Puts events together. The first complete value is the result. -/
def assemble : List Event → List Frame → Option Json
  | [], _ => none
  | event :: rest, frames =>
    let finish (value : Json) (frames : List Frame) : Option Json :=
      match place value frames with
      | (_, some value) => some value
      | (frames, none) => assemble rest frames
    match event, frames with
    | .scalar value, frames => finish value frames
    | .beginArray, frames => assemble rest (.items [] :: frames)
    | .beginObject, frames => assemble rest (.members [] none :: frames)
    | .key name, .members done _ :: frames => assemble rest (.members done (some name) :: frames)
    | .endArray, .items done :: frames => finish (.array done.reverse) frames
    | .endObject, .members done _ :: frames => finish (ofEntries done.reverse) frames
    | _, _ => none

def parse (text : String) : Except Failure Json :=
  let events := Events.ofText text
  match events.failure with
  | some failure => .error failure
  | none =>
    match assemble (events.events.map Located.event) [] with
    | some value => .ok value
    | none => .error ⟨.endInValue, text.utf8ByteSize⟩

mutual

def events : Json → List Event
  | .array items => .beginArray :: (itemEvents items ++ [.endArray])
  | .object members => .beginObject :: (memberEvents members ++ [.endObject])
  | value => [.scalar value]

def itemEvents : List Json → List Event
  | [] => []
  | item :: rest => events item ++ itemEvents rest

def memberEvents : List (String × Json) → List Event
  | [] => []
  | (key, value) :: rest => .key key :: (events value ++ memberEvents rest)

end

end SchemaCatalog.Json
