import NgFile.Syntax.Literal
import NgFile.Syntax.Tree

/-!
# Pages

A printed text is written onto a page, piece after piece.  The page knows its depth
of indentation, what begins where it ends, and which comments are on it already.
After a comment that does not end its line a blank stands for the next indentation,
wherever that is.
-/

namespace NgFile

namespace Syntax

structure Page where
  /-- What is written, last character first. -/
  reversed : Text
  length : Nat
  depth : Nat
  /-- Whether a blank stands for the next indentation. -/
  joinsLine : Bool
  /-- Where the last statement that is an expression begins. -/
  statementAt : Nat
  /-- Where the last expression that is the body of an arrow function begins. -/
  arrowBodyAt : Nat
  /-- Where the last expression that is a default export begins. -/
  defaultExportAt : Nat
  /-- The places whose comments are written. -/
  commented : List Nat

namespace Page

def blank : Page :=
  ⟨[], 0, 0, false, 0, 0, 0, []⟩

def text (p : Page) : Text :=
  p.reversed.reverse

def put (p : Page) (t : Text) : Page :=
  { p with reversed := t.reverseAux p.reversed, length := p.length + t.length }

theorem suffix_put (p : Page) (t : Text) : p.reversed <:+ (p.put t).reversed :=
  ⟨t.reverse, List.reverseAux_eq.symm⟩

/-- Whether there are comments at a place that are not written yet. -/
def awaitsComments (p : Page) (loc : Loc) : Bool :=
  (loc.comments.any fun c => !c.isMark) && !p.commented.contains loc.start

/-- Whether the page ends where an expression begins as a statement. -/
def atStatement (p : Page) : Bool :=
  p.statementAt == p.length

def atArrowBody (p : Page) : Bool :=
  p.arrowBodyAt == p.length

def atDefaultExport (p : Page) : Bool :=
  p.defaultExportAt == p.length

end Page

/-- What is put onto a page, where all that is written stays; writings follow one another. -/
structure Writing where
  onto : Page → Page
  grows : ∀ p, p.reversed <:+ (onto p).reversed

instance : Append Writing :=
  ⟨fun a b => ⟨fun p => b.onto (a.onto p), fun p => (a.grows p).trans (b.grows (a.onto p))⟩⟩

def Writing.ofText (t : Text) : Writing :=
  ⟨fun p => p.put t, fun p => p.suffix_put t⟩

instance : Coe Text Writing := ⟨Writing.ofText⟩

instance : Coe String Writing := ⟨fun s => Writing.ofText s.toList⟩

namespace Writing

def text (w : Writing) : Text :=
  (w.onto .blank).text

def nothing : Writing :=
  ⟨id, fun _ => List.suffix_rfl⟩

def depending (w : Page → Writing) : Writing :=
  ⟨fun p => (w p).onto p, fun p => (w p).grows p⟩

def when (condition : Bool) (w : Writing) : Writing :=
  if condition then w else nothing

def concat : List Writing → Writing
  | [] => nothing
  | w :: more => w ++ concat more

def joined (separator : Writing) : List Writing → Writing
  | [] => nothing
  | [w] => w
  | w :: more => w ++ separator ++ joined separator more

def listed (ws : List Writing) : Writing :=
  joined ", " ws

def preceded (front : Text) (w : Option Writing) : Writing :=
  match w with
  | some w => front ++ w
  | none => nothing

def word (applies : Bool) (w : Text) : Writing :=
  when applies (w ++ " ")

def wrapped (needed : Bool) (w : Writing) : Writing :=
  if needed then "(" ++ w ++ ")" else w

def newline : Writing :=
  "\n"

def indentation : Writing where
  onto p :=
    if p.joinsLine then { p.put [' '] with joinsLine := false }
    else p.put (List.replicate p.depth '\t')
  grows p := by
    split
    · exact p.suffix_put [' ']
    · exact p.suffix_put _

/-- Let a blank stand for the next indentation. -/
def joinLine : Writing :=
  ⟨fun p => { p with joinsLine := true }, fun _ => List.suffix_rfl⟩

def deeper (w : Writing) : Writing where
  onto p :=
    let after := w.onto { p with depth := p.depth + 1 }
    { after with depth := p.depth }
  grows p := w.grows { p with depth := p.depth + 1 }

/-- Braces around a writing on lines of its own, or on the line. -/
def braced (onLine : Bool) (w : Writing) : Writing :=
  if onLine then "\x7b" ++ w ++ "\x7d"
  else "\x7b" ++ newline ++ deeper w ++ indentation ++ "\x7d"

/-- Writings on a line each, one level deeper, with commas between them. -/
def stacked (ws : List Writing) : Writing :=
  deeper (newline ++ indentation ++ joined ("," ++ newline ++ indentation) ws) ++ newline ++
    indentation

def markStatement : Writing :=
  ⟨fun p => { p with statementAt := p.length }, fun _ => List.suffix_rfl⟩

def markArrowBody : Writing :=
  ⟨fun p => { p with arrowBodyAt := p.length }, fun _ => List.suffix_rfl⟩

def markDefaultExport : Writing :=
  ⟨fun p => { p with defaultExportAt := p.length }, fun _ => List.suffix_rfl⟩

def scriptEnd : Text := "/script"

/-- Whether a text begins with the end of the script tag, without regard to letter case. -/
def beginsScriptEnd (t : Text) : Bool :=
  (t.take scriptEnd.length).map Char.toLower = scriptEnd

/-- A text in which no tag ends the script of a page. -/
def withoutScriptEnd : Text → Text
  | [] => []
  | c :: rest =>
      if c == '<' && beginsScriptEnd rest then c :: '\\' :: withoutScriptEnd rest
      else c :: withoutScriptEnd rest

def lines : Text → List Text
  | [] => [[]]
  | '\r' :: '\n' :: rest => [] :: lines rest
  | c :: rest =>
      if isLineEnd c then [] :: lines rest
      else
        match lines rest with
        | [] => [[c]]
        | line :: more => (c :: line) :: more

/-- A comment; the lines of a longer one are indented. -/
def comment (c : Comment) : Writing :=
  match lines c.text with
  | [] => nothing
  | first :: more =>
      withoutScriptEnd first ++ concat (more.map fun line =>
        newline ++ indentation ++ withoutScriptEnd (Text.trimStartBy Text.isBlank line))

def beforeComments (c : Comment) : Writing :=
  if c.newlineBefore then
    depending fun p =>
      match p.reversed with
      | [] => nothing
      | '\n' :: _ => indentation
      | '\t' :: _ => nothing
      | _ => newline ++ indentation
  else indentation

/-- The end of a comment's line, or a blank instead of the next indentation. -/
def afterComment (c : Comment) : Writing :=
  if c.isLine || c.newlineAfter then newline else joinLine

/-- Comments; each one that does not end its line is followed by the next on that line. -/
def commentList (cs : List Comment) : Writing :=
  match cs.filter fun c => !c.isMark with
  | [] => nothing
  | first :: more =>
      beforeComments first ++ comment first ++ afterComment first ++
        concat (more.map fun c => indentation ++ comment c ++ afterComment c)

def markCommented (loc : Loc) : Writing :=
  ⟨fun p => { p with commented := loc.start :: p.commented }, fun _ => List.suffix_rfl⟩

def comments (loc : Loc) : Writing :=
  depending fun p =>
    when (p.awaitsComments loc) (markCommented loc ++ commentList loc.comments)

def commentLines (cs : List Comment) : Writing :=
  concat ((cs.filter fun c => !c.isMark).map fun c => newline ++ indentation ++ comment c) ++
    newline

def commentLinesAt (loc : Loc) : Writing :=
  depending fun p =>
    if p.awaitsComments loc then markCommented loc ++ commentLines loc.comments ++ indentation
    else newline ++ indentation

def lead (loc : Loc) : Writing :=
  comments loc ++ indentation

end Writing

end Syntax

end NgFile
