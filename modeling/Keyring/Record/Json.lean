import Keyring.Json.Reader
import Keyring.Record
import Keyring.Text.Base64Url

/-!
# Key records as JSON

A record is an object of its name, its key material as base64url and its time as RFC 3339. All three
fields have to be given, once each, and no others.

* `Record.toJson` writes a record, `Record.ofJson` reads one.
-/

namespace Keyring.Record

/-- The record as JSON text. -/
def toJson (r : Record) : String :=
  String.ofList <| Json.Writer.object
    [("name", Json.Writer.text r.name),
     ("key", Json.Writer.text (String.ofList (Base64Url.encodeText r.key))),
     ("created_at", Json.Writer.text (String.ofList (Rfc3339.write r.createdAt)))]

/-- What the meaning of a record's text can be refused for. -/
inductive Fault where
  | key (cause : Base64Url.Error)
  | time
  deriving DecidableEq, Repr

/-- The fields of a record as far as they are known. -/
structure Draft where
  name : Option String
  key : Option Bytes
  createdAt : Option Instant

def readKey : Json.Reader Fault Bytes :=
  Json.Reader.text.check fun s =>
    match Base64Url.decode (Bytes.ofText s) with
    | .ok key => .ok key
    | .error e => .error (.refused (.key e))

def readTime : Json.Reader Fault Instant :=
  Json.Reader.text.check fun s =>
    match Rfc3339.read? s.toList with
    | some t => .ok t
    | none => .error (.refused .time)

def shape : Json.Shape Fault Draft where
  fields :=
    [⟨"name", fun d => d.name.isSome,
      fun d => Json.Reader.text.map fun v => { d with name := some v }⟩,
     ⟨"key", fun d => d.key.isSome,
      fun d => readKey.map fun v => { d with key := some v }⟩,
     ⟨"created_at", fun d => d.createdAt.isSome,
      fun d => readTime.map fun v => { d with createdAt := some v }⟩]
  skipsUnknown := false
  mayEndEarly := false

/-- The record, once all fields are known. -/
def Draft.finish (d : Draft) : Except (Json.Error Fault) Record :=
  match d.name, d.key, d.createdAt with
  | some name, some key, some createdAt => .ok ⟨name, key, createdAt⟩
  | none, _, _ => .error (.missingField "name")
  | some _, none, _ => .error (.missingField "key")
  | some _, some _, none => .error (.missingField "created_at")

/-- Reads a record from JSON text. -/
def ofJson (text : String) : Except (Json.Error Fault) Record :=
  Json.Reader.parse ((shape.read ⟨none, none, none⟩).check Draft.finish) (Bytes.ofText text)

end Keyring.Record
