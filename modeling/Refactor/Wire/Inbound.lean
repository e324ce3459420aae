import Refactor.Json.Decode

/-!
# Messages from the server

The server answers requests (`Response`) and tells of things on its own
(`Event`). The type of a message is in its member `type`, or comes first when the
message is an array.
-/

namespace Refactor

open Json (Decoder Record DecodeError)

/-- The answer to a request. -/
structure Response where
  seq : Nat
  requestSeq : Nat
  success : Bool
  command : Option String
  message : Option String
  body : Option Json

/-- News from the server. -/
structure Event where
  seq : Nat
  name : String
  body : Option Json

/-- A message from the server. -/
inductive Inbound where
  | response (r : Response)
  | event (e : Event)

namespace Inbound

def responseRecord : Record Response :=
  Response.mk <$> .defaulted "seq" (.unsigned 64) 0 <*> .required "request_seq" (.unsigned 64) <*>
    .required "success" .bool <*> .optional "command" .string <*> .optional "message" .string <*>
    .optional "body" .any

def eventRecord : Record Event :=
  Event.mk <$> .defaulted "seq" (.unsigned 64) 0 <*> .required "event" .string <*>
    .optional "body" .any

/-- The two types of messages. -/
inductive Kind where
  | response
  | event
deriving DecidableEq, Repr

/-- The type of a message by its name. -/
def kind : Decoder Kind := fun v =>
  match Decoder.stringAs "variant identifier" v with
  | .error e => .error e
  | .ok name =>
    if name = "response" then .ok .response
    else if name = "event" then .ok .event
    else .error (.unknownVariant name ["response", "event"])

/-- Reads a tagged record from the items after the tag. -/
def ofItems {α : Type} (name : String) (r : Record α) (items : List Json) : Except DecodeError α :=
  r.ofItems name (.longTagged items.length r.arity) items

/-- Decodes a message. -/
def decode : Decoder Inbound
  | .obj ms =>
    match ms.lookup "type" with
    | none => .error (.missingField "type")
    | some tag =>
      match kind tag with
      | .error e => .error e
      | .ok .response => (responseRecord.ofMembers ms).map .response
      | .ok .event => (eventRecord.ofMembers ms).map .event
  | .arr [] => .error (.missingField "type")
  | .arr (tag :: items) =>
    match kind tag with
    | .error e => .error e
    | .ok .response => (ofItems "ResponseMessage" responseRecord items).map .response
    | .ok .event => (ofItems "EventMessage" eventRecord items).map .event
  | v => .error (.invalidType v.shape "internally tagged enum InboundMessage")

end Inbound

/-- Events by what they say about loading. -/
inductive ServerEvent where
  | projectLoadingStart
  | projectLoadingFinish
  | projectsUpdatedInBackground
  | other (name : String)
deriving DecidableEq, Repr

namespace ServerEvent

def ofName (name : String) : ServerEvent :=
  if name = "projectLoadingStart" then .projectLoadingStart
  else if name = "projectLoadingFinish" then .projectLoadingFinish
  else if name = "projectsUpdatedInBackground" then .projectsUpdatedInBackground
  else .other name

/-- Whether the project counts as loaded after the event, if the event decides it. -/
def loaded? : ServerEvent → Option Bool
  | .projectLoadingStart => some false
  | .projectLoadingFinish | .projectsUpdatedInBackground => some true
  | .other _ => none

end ServerEvent

end Refactor
