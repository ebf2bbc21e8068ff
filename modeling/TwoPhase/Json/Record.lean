/-
# `Record` — reading typed data off a document

Numbers, lists, one of several words, and records.  A record is an object
with named members in any order, of which unknown ones are skipped, or an
array of the members' values in their declared order.  Every reader goes
from the left and ends in the first thing that is wrong.

The name of a member is a quoted text for every reader, also for one that
wants a word and takes it from the name.  Anything else in its place makes
the text malformed, whatever it would be as a value, and is never taken for
a value of the wrong kind.
-/
import TwoPhase.Json.Document

namespace TwoPhase.Json

/-- What an atom is, to one who reads it. -/
def Atom.found : Atom → Except Refusal Found
  | .null => .ok .null
  | .bool b => .ok (.bool b)
  | .number n =>
      match n.quantity with
      | some q => .ok (.quantity q)
      | none => .error .malformed
  | .text q => .text <$> q.read
  | .broken toReader _ => .error toReader
  | .absent => .error .truncated

/-- What a document is.  Of arrays and objects only the bracket is looked at. -/
def Doc.found : Doc → Except Refusal Found
  | .atom a => a.found
  | .array _ => .ok .sequence
  | .object _ => .ok .map

def Doc.refuse {β : Type} (d : Doc) (wanted : Wanted) : Except Refusal β := do
  throw (.unsuitable (.invalidType (← d.found) wanted))

def Doc.float (d : Doc) : Except Refusal Float := do
  match ← d.found with
  | .quantity q => return q.toFloat
  | found => throw (.unsuitable (.invalidType found .number))

def Doc.count (d : Doc) : Except Refusal Nat := do
  match ← d.found with
  | .quantity (.natural n) => return n
  | .quantity (.negative n) =>
      throw (.unsuitable (.invalidValue (.quantity (.negative n)) .count))
  | found => throw (.unsuitable (.invalidType found .count))

def Items.readAll {β : Type} (read : Doc → Except Refusal β) : Items → Except Refusal (List β)
  | .closed => .ok []
  | .cut why => .error why
  | .item d rest => do
      let x ← read d
      return x :: (← rest.readAll read)

def Doc.list {β : Type} (read : Doc → Except Refusal β) : Doc → Except Refusal (List β)
  | .array items => items.readAll read
  | d => d.refuse .sequence

/-! ## Words -/

def lookUpWord {β : Type} (words : List (String × β)) (s : String) : Except Refusal β :=
  match words.lookup s with
  | some v => .ok v
  | none => .error (.unsuitable (.unknownVariant s (words.map (·.1))))

/-- Reads one of several words: quoted, or as the name of the only member of an
object, whose value is null. -/
def Doc.word {β : Type} (words : List (String × β)) : Doc → Except Refusal β
  | .atom (.text q) => do lookUpWord words (← q.read)
  | .atom .absent => .error .truncated
  | .object (.member name value rest) => do
      let v ← lookUpWord words (← name.read)
      match ← value.found with
      | .null => pure ()
      | found => throw (.unsuitable (.invalidType found .unit))
      match rest with
      | .closed => return v
      | .cut why => throw why
      | _ => throw .malformed
  | .object (.cut why) => .error why
  | _ => .error .malformed

/-! ## Records -/

/-- A member of a record whose values are collected in `σ`. -/
structure FieldReader (σ : Type) where
  name : String
  optional : Bool
  isSet : σ → Bool
  read : Doc → σ → Except Refusal σ

/-- Reads the members of an object.  No known member may come twice. -/
def Members.readFields {σ : Type} (fields : List (FieldReader σ)) :
    Members → σ → Except Refusal σ
  | .closed, s => .ok s
  | .cut why, _ => .error why
  | .member name d rest, s => do
      let name ← name.read
      match fields.find? (·.name == name) with
      | none => do
          d.skip
          rest.readFields fields s
      | some field =>
          if field.isSet s then
            throw (.unsuitable (.duplicateField name))
          else
            rest.readFields fields (← field.read d s)

/-- Reads the elements of an array as members, `position` of which have been read.
Optional ones may be left out at the end. -/
def Items.readFields {σ : Type} (wanted : Wanted) (position : Nat) :
    List (FieldReader σ) → Items → σ → Except Refusal σ
  | [], .closed, s => .ok s
  | [], .cut why, _ => .error why
  | [], .item _ _, _ => .error .malformed
  | field :: fields, .closed, s =>
      if field.optional then Items.readFields wanted (position + 1) fields .closed s
      else .error (.unsuitable (.invalidLength position wanted))
  | _ :: _, .cut why, _ => .error why
  | field :: fields, .item d rest, s => do
      Items.readFields wanted (position + 1) fields rest (← field.read d s)

/-- Reads the members of a record, starting from what is set without them. -/
def Doc.record {σ : Type} (name : String) (fields : List (FieldReader σ)) (blank : σ) :
    Doc → Except Refusal σ
  | .object members => members.readFields fields blank
  | .array items => items.readFields (.record name fields.length) 0 fields blank
  | d => d.refuse (.record name fields.length)

def needed {β : Type} (name : String) : Option β → Except Refusal β
  | some v => .ok v
  | none => .error (.unsuitable (.missingField name))

/-- What a whole text holds.  Nothing but blanks may follow it. -/
def readText {β : Type} (read : Doc → Except Refusal β) (text : String) :
    Except Refusal β := do
  let document := Document.ofText text
  let v ← read document.root
  if document.trailing then throw .malformed
  return v

end TwoPhase.Json
