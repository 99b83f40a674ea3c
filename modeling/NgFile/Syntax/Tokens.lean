import NgFile.Syntax.Literal

/-!
# The tokens of a text

A text is split into tokens from left to right, with a slash always read as an
operator; where the grammar wants an operand instead, `rescan` splits the rest
of the text again from that slash on, as a regular expression.  Comments lead
the token after them, unless they trail a token on its own line.
-/

namespace NgFile

namespace Syntax

/-- What has been passed since the last token. -/
structure Trivia where
  gap : Gap
  /-- Comments so far that do not trail the last token, last one first. -/
  pending : List Comment
  /-- Whether a line has ended since the last token. -/
  newline : Bool
  /-- Whether the last token is an equals sign or an opening parenthesis. -/
  afterOpener : Bool
  pureMark : Bool
  effectFreeMark : Bool

namespace Trivia

/-- What precedes the first token of a text: nothing, at the start of a line. -/
def atStart : Trivia :=
  ⟨.nothing, [], true, false, false, false⟩

def after (kind : TokenKind) : Trivia :=
  ⟨.nothing, [], false, kind == .punct .equal || kind == .punct .parenOpen, false, false⟩

def passBlank (t : Trivia) : Trivia :=
  { t with gap := if t.gap = .newline then .newline else .blank }

/-- Pass the end of a line: comments on the line of the last token trail it. -/
def passNewline (t : Trivia) : Trivia :=
  let pending := match t.pending with
    | [] => []
    | c :: earlier => if t.newline then { c with newlineAfter := true } :: earlier else []
  { t with gap := .newline, pending := pending, newline := true }

/-- Take in what a comment says about the call or the function after it. -/
def passMark (t : Trivia) (c : Comment) : Trivia :=
  { t with
    pureMark := t.pureMark || c.isPure, effectFreeMark := t.effectFreeMark || c.isEffectFree }

def passLine (t : Trivia) (text : Text) : Trivia :=
  let c : Comment := ⟨true, text, t.newline, true⟩
  let pending := if !t.newline && !t.afterOpener then [] else c :: t.pending
  { t.passMark c with gap := .newline, pending := pending, newline := true }

def passBlock (t : Trivia) (text : Text) : Trivia :=
  let c : Comment := ⟨false, text, t.newline, false⟩
  let gap := if t.gap = .newline || text.any isLineEnd then .newline else .blank
  { t.passMark c with gap := gap, pending := c :: t.pending }

end Trivia

def splitBlockComment : Text → Option (Text × Text)
  | [] => none
  | '*' :: '/' :: rest => some (['*', '/'], rest)
  | c :: rest => (splitBlockComment rest).map fun (body, after) => (c :: body, after)

def wordKind (name : Text) (escaped : Bool) : TokenKind :=
  match Keyword.ofText? name with
  | some k => .keyword k escaped
  | none => .name name

/--
The kind and length of the token at the front of a text that is no trivia and no longer than a
limit.
-/
def readKind (limit : Nat) (t : Text) : TokenKind × Nat :=
  match t with
  | [] => (.stop, 0)
  | c :: rest =>
      if isIdStart c || c == '\\' then
        match Literal.readName? (limit + 1) true t with
        | some name => (wordKind name.text name.escaped, name.length)
        | none => (.invalid, 1)
      else if c == '\x22' || c == '\x27' then
        match Literal.splitString c rest with
        | some (body, _) =>
            match Literal.ofStringBody? body with
            | some value => (.string value, body.length + 2)
            | none => (.invalid, 1)
        | none => (.invalid, 1)
      else if c == Text.graveAccent then
        match Literal.splitTemplate rest with
        | some (run, more, _) =>
            (.template true more (Literal.ofTemplateRun run), run.length + if more then 3 else 2)
        | none => (.invalid, 1)
      else if c.isDigit || (c == '.' && (rest.head?.any Char.isDigit)) then
        (Literal.readNumeral t).getD (.invalid, 1)
      else if c == '#' then
        match Literal.readName? (limit + 1) true rest with
        | some name =>
            if name.text.isEmpty then (.invalid, 1)
            else (.privateName name.text, name.length + 1)
        | none => (.invalid, 1)
      else
        match Punct.ofText? t with
        | some (p, n) => (.punct p, n)
        | none => (.invalid, 1)

/-- The braces open in each template substitution after a token. -/
def nestingAfter (nesting : List Nat) (kind : TokenKind) : List Nat :=
  match kind, nesting with
  | .punct .braceOpen, depth :: outer => (depth + 1) :: outer
  | .punct .braceClose, depth :: outer => (depth - 1) :: outer
  | .template true true _, nesting => 0 :: nesting
  | .template false false _, _ :: outer => outer
  | _, nesting => nesting

/--
The kind and length of the next token in a text no longer than a limit; a brace that closes a
template substitution goes on with the template.
-/
def readToken (limit : Nat) (nesting : List Nat) (t : Text) : TokenKind × Nat :=
  match t, nesting with
  | '}' :: rest, 0 :: _ =>
      match Literal.splitTemplate rest with
      | some (run, more, _) =>
          (.template false more (Literal.ofTemplateRun run), run.length + if more then 3 else 2)
      | none => (.invalid, 1)
  | t, _ => readKind limit t

/--
The tokens of a text from a position on.  Every step of the recursion passes at
least one character, so a fuel above the length of the text is enough.
-/
def tokensFrom : Nat → Trivia → List Nat → Nat → Text → List Token
  | 0, _, _, _, _ => []
  | fuel + 1, trivia, nesting, pos, t =>
      let token (kind : TokenKind) (stop : Nat) : Token :=
        ⟨kind, pos, stop, trivia.gap, trivia.pending.reverse, trivia.pureMark,
          trivia.effectFreeMark, nesting⟩
      match t with
      | [] => [token .stop pos]
      | '/' :: '/' :: rest =>
          let body := rest.takeWhile fun c => !isLineEnd c
          tokensFrom fuel (trivia.passLine ('/' :: '/' :: body)) nesting
            (pos + 2 + body.length) (rest.drop body.length)
      | '/' :: '*' :: rest =>
          match splitBlockComment rest with
          | some (body, after) =>
              tokensFrom fuel (trivia.passBlock ('/' :: '*' :: body)) nesting
                (pos + 2 + body.length) after
          | none => [token .invalid (pos + 2)]
      | c :: rest =>
          if isLineEnd c then tokensFrom fuel trivia.passNewline nesting (pos + 1) rest
          else if isSpace c then tokensFrom fuel trivia.passBlank nesting (pos + 1) rest
          else
            let (kind, length) := readToken fuel nesting t
            token kind (pos + length) ::
              tokensFrom fuel (.after kind) (nestingAfter nesting kind) (pos + length)
                (t.drop length)

def skipHashbang (t : Text) : Nat × Text :=
  match t with
  | '#' :: '!' :: rest =>
      let line := rest.takeWhile fun c => !isLineEnd c
      (2 + line.length, rest.drop line.length)
  | _ => (0, t)

/-- All tokens of a text; the last one is the end, unless an element before it is malformed. -/
def tokens (source : Text) : List Token :=
  let (pos, t) := skipHashbang source
  tokensFrom (source.length + 1) .atStart [] pos t

/-- The tokens from a slash on, when it begins a regular expression. -/
def rescan (source : Text) (slash : Token) : List Token :=
  let t := source.drop (slash.start + 1)
  match Literal.splitRegex false t with
  | none => [{ slash with kind := .invalid }]
  | some (body, rest) =>
      let flags := rest.takeWhile isIdContinue
      let after := rest.drop flags.length
      let stop := slash.start + 2 + body.length + flags.length
      let kind : TokenKind :=
        if Literal.areRegexFlags flags && after.head? != some '\\' then
            .regex body (Literal.orderedFlags flags)
        else .invalid
      { slash with kind := kind, stop := stop } ::
        tokensFrom (after.length + 1) (.after kind) slash.nesting stop after

end Syntax

end NgFile
