import NgFile.Proofs.OperandReading

/-!
# Plain phrases

A part of the language in which a phrase means the same wherever it stands: names, literals,
members and calls, arrays and objects, operators, assignments, arrow functions, and the
statements that declare, return or run them.  No phrase of it asks what is around it, so it may
be moved from the top of a script into a function, or written out anew.  The layout is free,
but for the two places where the end of a line would end the phrase.
-/

namespace NgFile

namespace Syntax

namespace Parser

open Lexeme

/-! ## Single tokens -/

inductive IsAtom : TokenKind → Prop
  | name (text : Text) : IsAtom (.name text)
  | yes : IsAtom (.keyword .kwTrue false)
  | no : IsAtom (.keyword .kwFalse false)
  | null : IsAtom (.keyword .kwNull false)
  | this : IsAtom (.keyword .kwThis false)
  | number (value : Double) : IsAtom (.number value)
  | string (value : StringValue) : IsAtom (.string value)
  /-- A template without substitutions and with well-formed escapes. -/
  | template {chunk : TemplateChunk} (h : chunk.cooked.isSome = true) :
      IsAtom (.template true false chunk)

inductive IsWord : TokenKind → Prop
  | name (text : Text) : IsWord (.name text)
  | keyword (k : Keyword) : IsWord (.keyword k false)

inductive IsKey : TokenKind → Prop
  | word {kind : TokenKind} (h : IsWord kind) : IsKey kind
  | number (value : Double) : IsKey (.number value)
  | string (value : StringValue) : IsKey (.string value)

inductive IsVariableWord : Keyword → Prop
  | constWord : IsVariableWord .kwConst
  | letWord : IsVariableWord .kwLet
  | varWord : IsVariableWord .kwVar

/-- What an expression that is a statement begins with; a brace would begin a block. -/
inductive BeginsStatement : TokenKind → Prop
  | name (text : Text) : BeginsStatement (.name text)
  | this : BeginsStatement (.keyword .kwThis false)

inductive Params : List Token → Prop
  | none : Params []
  | last {text : Text} {place : Place} (hthis : text ≠ "this") :
      Params [plainToken (.name text) place]
  | more {text : Text} {place comma : Place} {t : Token} {ts : List Token}
      (hthis : text ≠ "this") (hmore : Params (t :: ts)) :
      Params (plainToken (.name text) place :: plainToken (.punct .comma) comma :: t :: ts)

inductive FunctionFront : List Token → Place → Prop
  | plain (place : Place) : FunctionFront [] place
  | async (front : Place) {place : Place} (hgap : place.gap ≠ .newline) :
      FunctionFront [plainToken (.keyword .kwAsync false) front] place

def EndsInName (ts : List Token) : Prop :=
  ∃ text place, ts.getLast? = some (plainToken (.name text) place)

/-! ## Phrases -/

inductive Part
  /-- Members and calls behind an operand. -/
  | links
  | operand
  /-- Operands with operators between them. -/
  | chain
  | assignment
  | arrowBody
  /-- Assignments with commas between them, at least one. -/
  | items
  | list
  /-- Properties with commas between them, at least one. -/
  | entries
  | properties
  /-- A statement; an open one lacks its semicolon. -/
  | statement (closed : Bool)
  | statements

inductive Phrase : Part → List Token → Prop
  | noLinks : Phrase .links []
  | member {kind : TokenKind} {dot place : Place} {ts : List Token} (hword : IsWord kind)
      (hlinks : Phrase .links ts) :
      Phrase .links (plainToken (.punct .dot) dot :: plainToken kind place :: ts)
  | call {opening closing : Place} {args ts : List Token} (hargs : Phrase .list args)
      (hlinks : Phrase .links ts) :
      Phrase .links (plainToken (.punct .parenOpen) opening ::
        (args ++ plainToken (.punct .parenClose) closing :: ts))
  | atom {kind : TokenKind} {place : Place} {ts : List Token} (hatom : IsAtom kind)
      (hlinks : Phrase .links ts) : Phrase .operand (plainToken kind place :: ts)
  | array {opening closing : Place} {elements ts : List Token}
      (helements : Phrase .list elements) (hlinks : Phrase .links ts) :
      Phrase .operand (plainToken (.punct .bracketOpen) opening ::
        (elements ++ plainToken (.punct .bracketClose) closing :: ts))
  | object {opening closing : Place} {properties ts : List Token}
      (hproperties : Phrase .properties properties) (hlinks : Phrase .links ts) :
      Phrase .operand (plainToken (.punct .braceOpen) opening ::
        (properties ++ plainToken (.punct .braceClose) closing :: ts))
  | single {ts : List Token} (hoperand : Phrase .operand ts) : Phrase .chain ts
  | operator {p : Punct} {place : Place} {ts us : List Token} (hoperator : IsOperator p)
      (hleft : Phrase .operand ts) (hright : Phrase .chain us) :
      Phrase .chain (ts ++ plainToken (.punct p) place :: us)
  | value {ts : List Token} (hchain : Phrase .chain ts) : Phrase .assignment ts
  | assign {place : Place} {ts us : List Token} (hname : EndsInName ts)
      (htarget : Phrase .operand ts) (hvalue : Phrase .assignment us) :
      Phrase .assignment (ts ++ plainToken (.punct .equal) place :: us)
  | bareArrow {text : Text} {place arrow : Place} {ts : List Token}
      (hgap : arrow.gap ≠ .newline) (hbody : Phrase .arrowBody ts) :
      Phrase .assignment
        (plainToken (.name text) place :: plainToken (.punct .arrow) arrow :: ts)
  | arrow {opening closing arrow : Place} {params ts : List Token} (hparams : Params params)
      (hgap : arrow.gap ≠ .newline) (hbody : Phrase .arrowBody ts) :
      Phrase .assignment (plainToken (.punct .parenOpen) opening ::
        (params ++ plainToken (.punct .parenClose) closing ::
          plainToken (.punct .arrow) arrow :: ts))
  /-- An object would be taken for a block. -/
  | concise {t : Token} {ts : List Token} (hbrace : t.kind ≠ .punct .braceOpen)
      (hvalue : Phrase .assignment (t :: ts)) : Phrase .arrowBody (t :: ts)
  | block {opening closing : Place} {ts : List Token} (hbody : Phrase .statements ts) :
      Phrase .arrowBody (plainToken (.punct .braceOpen) opening ::
        (ts ++ [plainToken (.punct .braceClose) closing]))
  | lastItem {ts : List Token} (hitem : Phrase .assignment ts) : Phrase .items ts
  | item {comma : Place} {ts us : List Token} (hitem : Phrase .assignment ts)
      (hmore : Phrase .items us) :
      Phrase .items (ts ++ plainToken (.punct .comma) comma :: us)
  | noItems : Phrase .list []
  | items {ts : List Token} (hitems : Phrase .items ts) : Phrase .list ts
  | lastEntry {kind : TokenKind} {key colon : Place} {ts : List Token} (hkey : IsKey kind)
      (hvalue : Phrase .assignment ts) :
      Phrase .entries (plainToken kind key :: plainToken (.punct .colon) colon :: ts)
  | entry {kind : TokenKind} {key colon comma : Place} {ts us : List Token} (hkey : IsKey kind)
      (hvalue : Phrase .assignment ts) (hmore : Phrase .entries us) :
      Phrase .entries (plainToken kind key :: plainToken (.punct .colon) colon ::
        (ts ++ plainToken (.punct .comma) comma :: us))
  | noEntries : Phrase .properties []
  | entries {ts : List Token} (hentries : Phrase .entries ts) : Phrase .properties ts
  | expression {kind : TokenKind} {place : Place} {ts : List Token} (hbegins : BeginsStatement kind)
      (hvalue : Phrase .assignment (plainToken kind place :: ts)) :
      Phrase (.statement false) (plainToken kind place :: ts)
  | declaration {k : Keyword} {place name equal : Place} {text : Text} {ts : List Token}
      (hword : IsVariableWord k) (hvalue : Phrase .assignment ts) :
      Phrase (.statement false) (plainToken (.keyword k false) place ::
        plainToken (.name text) name :: plainToken (.punct .equal) equal :: ts)
  | result {place : Place} {t : Token} {ts : List Token} (hgap : t.gap ≠ .newline)
      (hvalue : Phrase .assignment (t :: ts)) :
      Phrase (.statement false) (plainToken (.keyword .kwReturn false) place :: t :: ts)
  | closed {place : Place} {ts : List Token} (hopen : Phrase (.statement false) ts) :
      Phrase (.statement true) (ts ++ [plainToken (.punct .semicolon) place])
  | function {front params ts : List Token} {place name opening closing start stop : Place}
      {text : Text} (hfront : FunctionFront front place) (hparams : Params params)
      (hbody : Phrase .statements ts) :
      Phrase (.statement true) (front ++ plainToken (.keyword .kwFunction false) place ::
        plainToken (.name text) name :: plainToken (.punct .parenOpen) opening ::
          (params ++ plainToken (.punct .parenClose) closing ::
            plainToken (.punct .braceOpen) start ::
              (ts ++ [plainToken (.punct .braceClose) stop])))
  | noStatements : Phrase .statements []
  | closedStatement {ts us : List Token} (hfirst : Phrase (.statement true) ts)
      (hmore : Phrase .statements us) : Phrase .statements (ts ++ us)
  /-- Without a semicolon the next statement must begin on a line of its own. -/
  | openStatement {ts us : List Token} (hfirst : Phrase (.statement false) ts)
      (hmore : Phrase .statements us) (hline : ∀ t ∈ us.head?, t.gap = .newline) :
      Phrase .statements (ts ++ us)

/-- Whether a text is put together from lexemes that are such tokens, wherever they stand. -/
def Spelled (P : List Token → Prop) (text : Text) : Prop :=
  ∃ ls, Separated ls ∧ texts ls = text ∧ ∀ gap pos, P (tokensOf gap pos ls)

end Parser

end Syntax

end NgFile
