import TypedRoutes.Error
import TypedRoutes.Naming.Binding

/-! # Documents with slots

A template is text with markers, comments that name a slot in double braces.  Texts are put into
the slots in any order, and the whole is written out once.  A marker alone on its line stands for
the line: what goes into its slot is written line by line with the marker's indentation, and the
line disappears if nothing does.  Any other marker stands for itself only.
-/

namespace TypedRoutes.Template
open TypedRoutes.Text TypedRoutes.Naming

structure Slot where
  name : String
  source : List Char
  /-- The indentation of a marker alone on its line. -/
  lineIndent : Option (List Char)
  chunks : List String := []
  deriving DecidableEq, Repr

inductive Segment where
  | text (chars : List Char)
  | slot (slot : Slot)
  deriving DecidableEq, Repr

structure Document where
  name : String
  segments : List Segment
  deriving DecidableEq, Repr

/-! ## Markers -/

def isIndentCharacter (c : Char) : Bool := c == ' ' || c == '\t'

def marker? (text : List Char) : Option (String × Nat) := do
  let afterOpen ← dropBeginning? ['/', '*'] text
  let blanks := afterOpen.takeWhile isWhitespace
  let afterBraces ← dropBeginning? ['\x7b', '\x7b'] (afterOpen.drop blanks.length)
  let inner := afterBraces.takeWhile isWhitespace
  let rest := afterBraces.drop inner.length
  let name := rest.takeWhile isWordCharacter
  if name.isEmpty then none
  let rest := rest.drop name.length
  let innerEnd := rest.takeWhile isWhitespace
  let afterName ← dropBeginning? ['\x7d', '\x7d'] (rest.drop innerEnd.length)
  let blanksEnd := afterName.takeWhile isWhitespace
  let _ ← dropBeginning? ['*', '/'] (afterName.drop blanksEnd.length)
  return (String.ofList name,
    blanks.length + inner.length + name.length + innerEnd.length + blanksEnd.length + 8)

/-- The blanks and the line break that end a line here: their length.  The end of the text ends a
line too. -/
def lineEnd? (text : List Char) : Option Nat :=
  let blanks := (text.takeWhile isIndentCharacter).length
  match text with
  | [] => some 0
  | _ =>
    match text.drop blanks with
    | '\n' :: _ => some (blanks + 1)
    | '\r' :: '\n' :: _ => some (blanks + 2)
    | _ => none

/-- A marker alone on the line that begins here, with the indentation before it and the end of the
line after it. -/
def standaloneSlot? (text : List Char) : Option Slot := do
  let indent := text.takeWhile isIndentCharacter
  let (name, n) ← marker? (text.drop indent.length)
  let k ← lineEnd? (text.drop (indent.length + n))
  return { name, source := text.take (indent.length + n + k), lineIndent := some indent }

def inlineSlot? (text : List Char) : Option Slot := do
  let (name, n) ← marker? text
  return { name, source := text.take n, lineIndent := none }

/-- The slot that begins at the head of a text; only at the start of a line can it be alone on
it. -/
def slot? (atLineStart : Bool) (text : List Char) : Option Slot :=
  (if atLineStart then standaloneSlot? text else none).or (inlineSlot? text)

/-! ## Reading a template -/

def consText (c : Char) : List Segment → List Segment
  | .text cs :: rest => .text (c :: cs) :: rest
  | rest => .text [c] :: rest

/-- Cuts a text into segments; `skip` characters of it belong to a slot already cut off. -/
def cut (atLineStart : Bool) (skip : Nat) : List Char → List Segment
  | [] => []
  | c :: cs =>
    if skip > 0 then cut (c = '\n') (skip - 1) cs
    else
      match slot? atLineStart (c :: cs) with
      | some slot => .slot slot :: cut (c = '\n') (slot.source.length - 1) cs
      | none => consText c (cut (c = '\n') 0 cs)

def Document.ofTemplate (name template : String) : Document :=
  { name, segments := cut true 0 template.toList }

/-! ## Slots -/

namespace Document

def slots (d : Document) : List Slot :=
  d.segments.filterMap fun
    | .slot s => some s
    | .text _ => none

def slotNames (d : Document) : List String := d.slots.map (·.name)

def hasSlot (d : Document) (name : String) : Bool := d.slotNames.contains name

def declaredBindings (d : Document) : List String :=
  d.segments.flatMap fun
    | .text cs => topLevelBindings (String.ofList cs)
    | .slot _ => []

/-- Fails for the first of the markers that the template lacks. -/
def require (d : Document) (markers : List String) : Except Fault Unit :=
  match markers.find? fun m => !d.hasSlot m with
  | some m => .error (.missingMarker d.name m)
  | none => .ok ()

def appendTo? (name content : String) : List Segment → Option (List Segment)
  | [] => none
  | .slot s :: rest =>
    if s.name = name then some (.slot { s with chunks := s.chunks ++ [content] } :: rest)
    else (appendTo? name content rest).map (.slot s :: ·)
  | .text cs :: rest => (appendTo? name content rest).map (.text cs :: ·)

def append? (d : Document) (name content : String) : Option Document :=
  (appendTo? name content d.segments).map fun segments => { d with segments }

/-- Puts a text into the first slot of the name; a document without one stays as it is. -/
def append (d : Document) (name content : String) : Document :=
  (d.append? name content).getD d

end Document

/-! ## Writing a document -/

/-- A line with its indentation and its end; an empty line gets no indentation. -/
def indentedLine (indent line : List Char) : List Char :=
  (if line.isEmpty then [] else indent ++ line) ++ ['\n']

def Slot.render (s : Slot) : List Char :=
  match s.lineIndent with
  | some indent =>
    (s.chunks.flatMap fun chunk => linesOfChars chunk.toList).flatMap (indentedLine indent)
  | none => s.chunks.flatMap String.toList

def Segment.render : Segment → List Char
  | text cs => cs
  | slot s => s.render

def Document.render (d : Document) : String := String.ofList (d.segments.flatMap Segment.render)

end TypedRoutes.Template
