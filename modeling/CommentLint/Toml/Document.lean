import CommentLint.Toml.Moment
import CommentLint.Toml.Number
import CommentLint.Toml.Table

/-
  Reading TOML documents.

  A document is a sequence of statements, each on lines of its
  own: a key with its value, or the header of a table or of an
  item of a list of tables.  A value written in line is closed
  for later statements, and no table is opened twice.

  Key definitions include:
    * `Toml.readValue`
    * `Toml.Draft`
    * `Toml.parse`
-/

namespace CommentLint

namespace Toml

------------------------------------------------------------
-- Values
------------------------------------------------------------

/- Whether a value is a list or a table. -/
def isContainer : Setting → Bool
  | .list _ => true
  | .table _ => true
  | _ => false

/- Whether some closed path leads to a path or to one above it. -/
def isClosed
    (closed : List (List String))
    (path : List String) : Bool :=
  closed.any fun p => p.isPrefixOf path

/-
  Add a field to a table that is written in line; `closed` has
  the paths of the containers among its fields.
-/
def addInline?
    (closed : List (List String))
    (key : List String)
    (value : Setting)
    (fields : Fields) : Option Fields :=
  if isClosed closed key then none
  else
    modifyAt? false (addField? (key.getLast?.getD "") value)
      key.dropLast fields

/- Read a value that has no parts. -/
def readScalar (s : List Char) : Read Setting :=
  if "true".toList.isPrefixOf s then .ok (.bool true, s.drop 4)
  else if "false".toList.isPrefixOf s then
    .ok (.bool false, s.drop 5)
  else
    match readMoment? s with
    | some read => read
    | none =>
        match readNumber? s with
        | some read => read
        | none =>
            match readSpecial? s with
            | some read => .ok read
            | none => fail

/-
  The room for values that are written inside each other.  A
  list takes two parts of it, and a table three.
-/
def nestingRoom : Nat :=
  988

/- The room that is left when a value takes some of it. -/
def takeRoom
    (part room : Nat) : Except Error Nat :=
  if room < part then .error .tooDeep else .ok (room - part)

mutual

/-
  Read a value.  The first argument bounds the steps, and the
  second is the room for values inside this one.
-/
def readValue :
    Nat → Nat → List Char → Read Setting
  | 0, _, _ => fail
  | fuel + 1, room, s =>
      match s with
      | '"' :: _ =>
          (readQuoted s).map fun (t, rest) => (.text t, rest)
      | '\'' :: _ =>
          (readQuoted s).map fun (t, rest) => (.text t, rest)
      | '[' :: rest =>
          match takeRoom 2 room with
          | .error e => .error e
          | .ok room => readItems fuel room [] rest
      | '\x7b' :: rest =>
          match takeRoom 3 room, skipGap rest with
          | .error e, _ => .error e
          | .ok _, '\x7d' :: rest => .ok (.table [], rest)
          | .ok room, rest => readFields fuel room [] [] rest
      | s => readScalar s

/- Read the items of a list behind those read already. -/
def readItems :
    Nat → Nat → List Setting → List Char → Read Setting
  | 0, _, _, _ => fail
  | fuel + 1, room, done, s =>
      match skipLines fuel s with
      | .error e => .error e
      | .ok (']' :: rest) => .ok (.list done.reverse, rest)
      | .ok s =>
          match readValue fuel room s with
          | .error e => .error e
          | .ok (v, rest) =>
              match skipLines fuel rest with
              | .ok (',' :: rest) =>
                  readItems fuel room (v :: done) rest
              | .ok (']' :: rest) =>
                  .ok (.list (v :: done).reverse, rest)
              | .ok _ => fail
              | .error e => .error e

/- Read the fields of a table in line behind those read already. -/
def readFields :
    Nat → Nat → List (List String) → Fields → List Char →
      Read Setting
  | 0, _, _, _, _ => fail
  | fuel + 1, room, closed, done, s =>
      match readKey s with
      | .ok (key, '=' :: rest) =>
          match readValue fuel room (skipGap rest) with
          | .error e => .error e
          | .ok (v, rest) =>
              match addInline? closed key v done with
              | none => fail
              | some fields =>
                  match skipGap rest with
                  | '\x7d' :: rest => .ok (.table fields, rest)
                  | ',' :: rest =>
                      readFields fuel room
                        (if isContainer v then key :: closed
                          else closed)
                        fields (skipGap rest)
                  | _ => fail
      | .ok _ => fail
      | .error e => .error e

end

------------------------------------------------------------
-- Documents Under Construction
------------------------------------------------------------

/-
  A document so far: its fields, the paths of values written
  in line, the paths of tables that were opened, those that
  dotted keys have opened since the last header, and the path
  of that header.
-/
structure Draft where
  fields : Fields := []
  closed : List (List String) := []
  opened : List (List String) := []
  pending : List (List String) := []
  header : List String := []
deriving Repr

namespace Draft

/- The tables that dotted keys opened count from a header on. -/
def settle (d : Draft) : Draft :=
  { d with
    opened := d.pending ++ d.opened
    pending := [] }

/- Open a table by its header. -/
def openTable?
    (d : Draft)
    (path : List String) : Option Draft :=
  if d.opened.contains path || isClosed d.closed path then none
  else
    (modifyAt? true some path d.fields).map fun fields =>
      { d with
        fields := fields
        opened := path :: d.opened
        header := path }

/- Start a new item of a list of tables by its header. -/
def openItem?
    (d : Draft)
    (path : List String) : Option Draft :=
  if isClosed d.closed path then none
  else
    (modifyAt? true (addTable? (path.getLast?.getD ""))
        path.dropLast d.fields).map fun fields =>
      let below := fun p => path.isPrefixOf p
      { d with
        fields := fields
        closed := d.closed.filter fun p => !below p
        opened := path :: d.opened.filter fun p => !below p
        header := path }

/- The paths of the tables that a dotted key leads through. -/
def through
    (d : Draft)
    (key : List String) : List (List String) :=
  (List.range (key.length - 1)).map
    fun i => d.header ++ key.take (i + 1)

/- Give a key a value below the last header. -/
def assign?
    (d : Draft)
    (key : List String)
    (value : Setting) : Option Draft :=
  let through := d.through key
  let parent := d.header ++ key.dropLast
  if through.any d.opened.contains || isClosed d.closed parent
  then none
  else
    (modifyAt? true (addField? (key.getLast?.getD "") value)
        parent d.fields).map fun fields =>
      { d with
        fields := fields
        closed :=
          if isContainer value then
            (d.header ++ key) :: d.closed
          else d.closed
        pending := through ++ d.pending }

end Draft

------------------------------------------------------------
-- Statements
------------------------------------------------------------

/- A change to a draft that may be refused. -/
def accept
    (d? : Option Draft)
    (rest : List Char) : Read Draft :=
  match d? with
  | some d => .ok (d, rest)
  | none => fail

/- Read the header of a table or of an item. -/
def readHeader
    (d : Draft)
    (s : List Char) : Read Draft :=
  let d := d.settle
  match s with
  | '[' :: '[' :: rest =>
      match readKey (skipGap rest) with
      | .ok (path, ']' :: ']' :: rest) =>
          accept (d.openItem? path) rest
      | _ => fail
  | '[' :: rest =>
      match readKey (skipGap rest) with
      | .ok (path, ']' :: rest) => accept (d.openTable? path) rest
      | _ => fail
  | _ => fail

/- Read a key and its value. -/
def readAssignment
    (d : Draft)
    (s : List Char) : Read Draft :=
  match readKey s with
  | .ok (key, '=' :: rest) =>
      match
        readValue (2 * rest.length + 2) nestingRoom
          (skipGap rest)
      with
      | .ok (v, rest) => accept (d.assign? key v) rest
      | .error e => .error e
  | .ok _ => fail
  | .error e => .error e

/- Read one statement, if the line has one. -/
def readStatement
    (d : Draft)
    (s : List Char) : Read Draft :=
  match s with
  | [] => .ok (d, [])
  | '\n' :: rest => .ok (d, '\n' :: rest)
  | '#' :: rest => .ok (d, '#' :: rest)
  | '[' :: rest => readHeader d ('[' :: rest)
  | s => readAssignment d s

/- Read the statements that are left; the first argument bounds them. -/
def readStatements :
    Nat → Draft → List Char → Except Error Draft
  | 0, _, _ => fail
  | fuel + 1, d, s =>
      match readStatement d (skipGap s) with
      | .error e => .error e
      | .ok (d, rest) =>
          match skipComment (skipGap rest) with
          | .error e => .error e
          | .ok [] => .ok d
          | .ok ('\n' :: rest) => readStatements fuel d rest
          | .ok _ => fail

/-
  Turn each carriage return with a line feed after it into the
  line feed alone, behind the text done already, which is
  given reversed.
-/
def unifyLineEnds
    (done : List Char) :
    List Char → List Char
  | [] => done.reverse
  | '\r' :: '\n' :: rest => unifyLineEnds ('\n' :: done) rest
  | c :: rest => unifyLineEnds (c :: done) rest

/- The table that a document denotes. -/
def parse (text : List Char) : Except Error Setting :=
  let s := unifyLineEnds [] text
  (readStatements (s.length + 1) {} s).map
    fun d => .table d.fields

end Toml

end CommentLint
