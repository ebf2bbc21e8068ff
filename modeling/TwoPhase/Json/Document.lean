/-
# `Document` — a JSON text read as far as it goes

Tokens are put together to a document.  Where the text does not go on as a
document must, the document breaks off: the list of elements or members at
that place ends in what is wrong, and everything before it stays as it was
read.  A reader that goes through a document from the left therefore meets
the first fault of the text, be it in its form or in what it says.
-/
import TwoPhase.Json.Token

namespace TwoPhase.Json

mutual

inductive Doc where
  | atom (a : Atom)
  | array (items : Items)
  | object (members : Members)

/-- The elements of an array up to its closing bracket, or to where it breaks
off. -/
inductive Items where
  | closed
  | cut (why : Refusal)
  | item (d : Doc) (rest : Items)

/-- The members of an object up to its closing bracket, or to where it breaks
off. -/
inductive Members where
  | closed
  | cut (why : Refusal)
  | member (name : Quoted) (value : Doc) (rest : Members)

end

/-- Puts elements, the last one first, in front of others. -/
def Items.behind (done : List Doc) (rest : Items) : Items :=
  done.foldl (fun rest d => .item d rest) rest

/-- Puts members, the last one first, in front of others. -/
def Members.behind (done : List (Quoted × Doc)) (rest : Members) : Members :=
  done.foldl (fun rest (name, d) => .member name d rest) rest

/-! ## Putting tokens together -/

/-- What surrounds a value that is being read: what came before it in its array or
object, the last first. -/
inductive Frame where
  | items (done : List Doc)
  | member (done : List (Quoted × Doc)) (name : Quoted)

/-- The array or object that ends, for the given reason, behind a value. -/
def Frame.cutBehind (why : Refusal) (d : Doc) : Frame → Doc
  | .items done => .array (Items.behind (d :: done) (.cut why))
  | .member done name => .object (Members.behind ((name, d) :: done) (.cut why))

/-- The whole document that breaks off in one of its values. -/
def breakOff (stack : List Frame) (d : Doc) : Doc :=
  stack.foldl (fun d frame => frame.cutBehind .truncated d) d

/-- What may come next.  The innermost frame comes first. -/
inductive State where
  /-- A value. -/
  | value (stack : List Frame)
  /-- A value or the end of an array just begun. -/
  | firstItem (stack : List Frame)
  /-- A name or the end of an object just begun. -/
  | firstName (stack : List Frame)
  /-- A name. -/
  | name (done : List (Quoted × Doc)) (stack : List Frame)
  /-- The colon behind a name. -/
  | colon (done : List (Quoted × Doc)) (name : Quoted) (stack : List Frame)
  /-- A comma or a closing bracket; nothing where the document is complete. -/
  | behind (d : Doc) (stack : List Frame)

def Doc.misfit : Doc := .atom .misfit

def Doc.absent : Doc := .atom .absent

namespace State

def takeValue (stack : List Frame) : Token → Except Doc State
  | .opening .square => .ok (.firstItem stack)
  | .opening .curly => .ok (.firstName stack)
  | .atom a => .ok (.behind (.atom a) stack)
  | _ => .error (breakOff stack .misfit)

def takeName (done : List (Quoted × Doc)) (stack : List Frame) : Token → Except Doc State
  | .atom (.text q) => .ok (.colon done q stack)
  | _ => .error (breakOff stack (.object (Members.behind done (.cut .malformed))))

/-- Takes a token, or gives the document that breaks off in front of it. -/
def take : State → Token → Except Doc State
  | .value stack, t => takeValue stack t
  | .firstItem stack, .closing .square => .ok (.behind (.array .closed) stack)
  | .firstItem stack, t => takeValue (.items [] :: stack) t
  | .firstName stack, .closing .curly => .ok (.behind (.object .closed) stack)
  | .firstName stack, t => takeName [] stack t
  | .name done stack, t => takeName done stack t
  | .colon done key stack, .colon => .ok (.value (.member done key :: stack))
  | .colon done key stack, _ =>
      .error (breakOff (.member done key :: stack) .misfit)
  | .behind d (.items done :: stack), .comma => .ok (.value (.items (d :: done) :: stack))
  | .behind d (.items done :: stack), .closing .square =>
      .ok (.behind (.array (Items.behind (d :: done) .closed)) stack)
  | .behind d (.member done key :: stack), .comma => .ok (.name ((key, d) :: done) stack)
  | .behind d (.member done key :: stack), .closing .curly =>
      .ok (.behind (.object (Members.behind ((key, d) :: done) .closed)) stack)
  | .behind d (frame :: stack), _ => .error (breakOff stack (frame.cutBehind .malformed d))
  | .behind d [], _ => .error d

def finish : State → Doc
  | .value stack => breakOff stack .absent
  | .firstItem stack => breakOff stack (.array (.cut .truncated))
  | .firstName stack => breakOff stack (.object (.cut .truncated))
  | .name done stack =>
      breakOff stack (.object (Members.behind done
        (.member ⟨[], some .truncated⟩ .absent (.cut .truncated))))
  | .colon done key stack => breakOff (.member done key :: stack) .absent
  | .behind d stack => breakOff stack d

end State

/-- A document and whether the text goes on behind it. -/
structure Document where
  root : Doc
  trailing : Bool

namespace Document

def resume : State → List Token → Document
  | .behind d [], ts => ⟨d, !ts.isEmpty⟩
  | s, [] => ⟨s.finish, false⟩
  | s, t :: ts =>
      match s.take t with
      | .ok s => resume s ts
      | .error d => ⟨d, false⟩

def ofTokens (ts : List Token) : Document := resume (.value []) ts

def ofText (text : String) : Document := ofTokens (tokens text.toList)

end Document

/-! ## Passing over values -/

def Atom.skip : Atom → Except Refusal Unit
  | .text q => q.skip
  | .broken _ toSkipper => .error toSkipper
  | .absent => .error .truncated
  | _ => .ok ()

mutual

def Doc.skip : Doc → Except Refusal Unit
  | .atom a => a.skip
  | .array items => items.skip
  | .object members => members.skip

def Items.skip : Items → Except Refusal Unit
  | .closed => .ok ()
  | .cut why => .error why
  | .item d rest => do
      d.skip
      rest.skip

def Members.skip : Members → Except Refusal Unit
  | .closed => .ok ()
  | .cut why => .error why
  | .member name d rest => do
      name.skip
      d.skip
      rest.skip

end

end TwoPhase.Json
