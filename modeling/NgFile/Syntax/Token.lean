import NgFile.Syntax.IdentifierChars
import NgFile.Numeral

/-!
# Tokens

The lexical elements of a script: words, punctuators and literals, with the
comments that lead them.  Angle brackets are always tokens of their own, so that
nested type arguments close one by one; the operators made of them are put
together again from neighbouring tokens.
-/

namespace NgFile

namespace Syntax

/-- A comment with its delimiters, and whether it has a line to itself. -/
structure Comment where
  isLine : Bool
  text : Text
  newlineBefore : Bool
  newlineAfter : Bool
  deriving DecidableEq

/-- The first word of a comment, after its delimiter and a leading `@` or `#`. -/
def Comment.mark (c : Comment) : Text :=
  match Text.trimStartBy Text.isBlank (c.text.drop 2) with
  | '@' :: rest => rest
  | '#' :: rest => rest
  | _ => []

/-- Whether the comment says that the next call has no effect. -/
def Comment.isPure (c : Comment) : Bool :=
  Text.beginsWith "__PURE__" c.mark

/-- Whether the comment says that calls of the next function have no effect. -/
def Comment.isEffectFree (c : Comment) : Bool :=
  Text.beginsWith "__NO_SIDE_EFFECTS__" c.mark

/-- Whether the comment marks a call or a function and is no remark of its own. -/
def Comment.isMark (c : Comment) : Bool :=
  c.isPure || c.isEffectFree

inductive Keyword
  | kwAwait
  | kwBreak
  | kwCase
  | kwCatch
  | kwClass
  | kwConst
  | kwContinue
  | kwDebugger
  | kwDefault
  | kwDelete
  | kwDo
  | kwElse
  | kwEnum
  | kwExport
  | kwExtends
  | kwFalse
  | kwFinally
  | kwFor
  | kwFunction
  | kwIf
  | kwImport
  | kwIn
  | kwInstanceof
  | kwNew
  | kwNull
  | kwReturn
  | kwSuper
  | kwSwitch
  | kwThis
  | kwThrow
  | kwTrue
  | kwTry
  | kwTypeof
  | kwVar
  | kwVoid
  | kwWhile
  | kwWith
  | kwImplements
  | kwInterface
  | kwLet
  | kwPackage
  | kwPrivate
  | kwProtected
  | kwPublic
  | kwStatic
  | kwYield
  | kwAbstract
  | kwAccessor
  | kwAny
  | kwAs
  | kwAsserts
  | kwAsync
  | kwBigint
  | kwBoolean
  | kwConstructor
  | kwDeclare
  | kwDefer
  | kwFrom
  | kwGet
  | kwGlobal
  | kwInfer
  | kwIntrinsic
  | kwIs
  | kwKeyof
  | kwMeta
  | kwModule
  | kwNamespace
  | kwNever
  | kwNumber
  | kwObject
  | kwOf
  | kwOut
  | kwOverride
  | kwReadonly
  | kwRequire
  | kwSatisfies
  | kwSet
  | kwSource
  | kwString
  | kwSymbol
  | kwTarget
  | kwType
  | kwUndefined
  | kwUnique
  | kwUnknown
  | kwUsing
  deriving DecidableEq

namespace Keyword

def text : Keyword → Text
  | kwAwait => "await"
  | kwBreak => "break"
  | kwCase => "case"
  | kwCatch => "catch"
  | kwClass => "class"
  | kwConst => "const"
  | kwContinue => "continue"
  | kwDebugger => "debugger"
  | kwDefault => "default"
  | kwDelete => "delete"
  | kwDo => "do"
  | kwElse => "else"
  | kwEnum => "enum"
  | kwExport => "export"
  | kwExtends => "extends"
  | kwFalse => "false"
  | kwFinally => "finally"
  | kwFor => "for"
  | kwFunction => "function"
  | kwIf => "if"
  | kwImport => "import"
  | kwIn => "in"
  | kwInstanceof => "instanceof"
  | kwNew => "new"
  | kwNull => "null"
  | kwReturn => "return"
  | kwSuper => "super"
  | kwSwitch => "switch"
  | kwThis => "this"
  | kwThrow => "throw"
  | kwTrue => "true"
  | kwTry => "try"
  | kwTypeof => "typeof"
  | kwVar => "var"
  | kwVoid => "void"
  | kwWhile => "while"
  | kwWith => "with"
  | kwImplements => "implements"
  | kwInterface => "interface"
  | kwLet => "let"
  | kwPackage => "package"
  | kwPrivate => "private"
  | kwProtected => "protected"
  | kwPublic => "public"
  | kwStatic => "static"
  | kwYield => "yield"
  | kwAbstract => "abstract"
  | kwAccessor => "accessor"
  | kwAny => "any"
  | kwAs => "as"
  | kwAsserts => "asserts"
  | kwAsync => "async"
  | kwBigint => "bigint"
  | kwBoolean => "boolean"
  | kwConstructor => "constructor"
  | kwDeclare => "declare"
  | kwDefer => "defer"
  | kwFrom => "from"
  | kwGet => "get"
  | kwGlobal => "global"
  | kwInfer => "infer"
  | kwIntrinsic => "intrinsic"
  | kwIs => "is"
  | kwKeyof => "keyof"
  | kwMeta => "meta"
  | kwModule => "module"
  | kwNamespace => "namespace"
  | kwNever => "never"
  | kwNumber => "number"
  | kwObject => "object"
  | kwOf => "of"
  | kwOut => "out"
  | kwOverride => "override"
  | kwReadonly => "readonly"
  | kwRequire => "require"
  | kwSatisfies => "satisfies"
  | kwSet => "set"
  | kwSource => "source"
  | kwString => "string"
  | kwSymbol => "symbol"
  | kwTarget => "target"
  | kwType => "type"
  | kwUndefined => "undefined"
  | kwUnique => "unique"
  | kwUnknown => "unknown"
  | kwUsing => "using"

def all : List Keyword := [
    .kwAwait, .kwBreak, .kwCase, .kwCatch, .kwClass, .kwConst,
    .kwContinue, .kwDebugger, .kwDefault, .kwDelete, .kwDo, .kwElse,
    .kwEnum, .kwExport, .kwExtends, .kwFalse, .kwFinally, .kwFor,
    .kwFunction, .kwIf, .kwImport, .kwIn, .kwInstanceof, .kwNew,
    .kwNull, .kwReturn, .kwSuper, .kwSwitch, .kwThis, .kwThrow,
    .kwTrue, .kwTry, .kwTypeof, .kwVar, .kwVoid, .kwWhile,
    .kwWith, .kwImplements, .kwInterface, .kwLet, .kwPackage, .kwPrivate,
    .kwProtected, .kwPublic, .kwStatic, .kwYield, .kwAbstract, .kwAccessor,
    .kwAny, .kwAs, .kwAsserts, .kwAsync, .kwBigint, .kwBoolean,
    .kwConstructor, .kwDeclare, .kwDefer, .kwFrom, .kwGet, .kwGlobal,
    .kwInfer, .kwIntrinsic, .kwIs, .kwKeyof, .kwMeta, .kwModule,
    .kwNamespace, .kwNever, .kwNumber, .kwObject, .kwOf, .kwOut,
    .kwOverride, .kwReadonly, .kwRequire, .kwSatisfies, .kwSet, .kwSource,
    .kwString, .kwSymbol, .kwTarget, .kwType, .kwUndefined, .kwUnique,
    .kwUnknown, .kwUsing
  ]

def ofText? (t : Text) : Option Keyword :=
  all.find? fun k => k.text == t

def isReserved : Keyword → Bool
  | kwBreak | kwCase | kwCatch | kwClass | kwConst
  | kwContinue | kwDebugger | kwDefault | kwDelete | kwDo
  | kwElse | kwEnum | kwExport | kwExtends | kwFalse
  | kwFinally | kwFor | kwFunction | kwIf | kwImport
  | kwIn | kwInstanceof | kwNew | kwNull | kwReturn
  | kwSuper | kwSwitch | kwThis | kwThrow | kwTrue
  | kwTry | kwTypeof | kwVar | kwVoid | kwWhile
  | kwWith => true
  | _ => false

end Keyword

inductive Punct
  | braceOpen
  | braceClose
  | parenOpen
  | parenClose
  | bracketOpen
  | bracketClose
  | dot
  | ellipsis
  | semicolon
  | comma
  | less
  | greater
  | equalEqual
  | bangEqual
  | equalEqualEqual
  | bangEqualEqual
  | plus
  | minus
  | star
  | slash
  | percent
  | starStar
  | plusPlus
  | minusMinus
  | amp
  | bar
  | caret
  | bang
  | tilde
  | ampAmp
  | barBar
  | question
  | questionQuestion
  | questionDot
  | colon
  | equal
  | plusEqual
  | minusEqual
  | starEqual
  | slashEqual
  | percentEqual
  | starStarEqual
  | ampEqual
  | barEqual
  | caretEqual
  | ampAmpEqual
  | barBarEqual
  | questionQuestionEqual
  | arrow
  | at
  deriving DecidableEq

namespace Punct

/-- The longest punctuator at the front of a text, with its length. -/
def ofText? : Text → Option (Punct × Nat)
  | '.' :: '.' :: '.' :: _ => some (.ellipsis, 3)
  | '=' :: '=' :: '=' :: _ => some (.equalEqualEqual, 3)
  | '!' :: '=' :: '=' :: _ => some (.bangEqualEqual, 3)
  | '*' :: '*' :: '=' :: _ => some (.starStarEqual, 3)
  | '&' :: '&' :: '=' :: _ => some (.ampAmpEqual, 3)
  | '|' :: '|' :: '=' :: _ => some (.barBarEqual, 3)
  | '?' :: '?' :: '=' :: _ => some (.questionQuestionEqual, 3)
  | '=' :: '=' :: _ => some (.equalEqual, 2)
  | '!' :: '=' :: _ => some (.bangEqual, 2)
  | '*' :: '*' :: _ => some (.starStar, 2)
  | '+' :: '+' :: _ => some (.plusPlus, 2)
  | '-' :: '-' :: _ => some (.minusMinus, 2)
  | '&' :: '&' :: _ => some (.ampAmp, 2)
  | '|' :: '|' :: _ => some (.barBar, 2)
  | '?' :: '?' :: _ => some (.questionQuestion, 2)
  | '+' :: '=' :: _ => some (.plusEqual, 2)
  | '-' :: '=' :: _ => some (.minusEqual, 2)
  | '*' :: '=' :: _ => some (.starEqual, 2)
  | '/' :: '=' :: _ => some (.slashEqual, 2)
  | '%' :: '=' :: _ => some (.percentEqual, 2)
  | '&' :: '=' :: _ => some (.ampEqual, 2)
  | '|' :: '=' :: _ => some (.barEqual, 2)
  | '^' :: '=' :: _ => some (.caretEqual, 2)
  | '=' :: '>' :: _ => some (.arrow, 2)
  | '{' :: _ => some (.braceOpen, 1)
  | '}' :: _ => some (.braceClose, 1)
  | '(' :: _ => some (.parenOpen, 1)
  | ')' :: _ => some (.parenClose, 1)
  | '[' :: _ => some (.bracketOpen, 1)
  | ']' :: _ => some (.bracketClose, 1)
  | '.' :: _ => some (.dot, 1)
  | ';' :: _ => some (.semicolon, 1)
  | ',' :: _ => some (.comma, 1)
  | '<' :: _ => some (.less, 1)
  | '>' :: _ => some (.greater, 1)
  | '+' :: _ => some (.plus, 1)
  | '-' :: _ => some (.minus, 1)
  | '*' :: _ => some (.star, 1)
  | '/' :: _ => some (.slash, 1)
  | '%' :: _ => some (.percent, 1)
  | '&' :: _ => some (.amp, 1)
  | '|' :: _ => some (.bar, 1)
  | '^' :: _ => some (.caret, 1)
  | '!' :: _ => some (.bang, 1)
  | '~' :: _ => some (.tilde, 1)
  | '?' :: '.' :: rest =>
      match rest with
      | c :: _ => if c.isDigit then some (.question, 1) else some (.questionDot, 2)
      | [] => some (.questionDot, 2)
  | '?' :: _ => some (.question, 1)
  | ':' :: _ => some (.colon, 1)
  | '=' :: _ => some (.equal, 1)
  | '@' :: _ => some (.at, 1)
  | _ => none

end Punct

structure StringValue where
  /-- A lone surrogate stands here as U+FFFD and its four hexadecimal digits. -/
  text : Text
  /-- Whether there is a lone surrogate; then U+FFFD itself is written out as well. -/
  hasLoneSurrogate : Bool
  deriving DecidableEq

/-- One run of a template literal between substitutions. -/
structure TemplateChunk where
  raw : Text
  /-- The text it denotes; none if an escape in it is malformed. -/
  cooked : Option Text
  deriving DecidableEq

inductive TokenKind
  /-- A name that is no keyword. -/
  | name (text : Text)
  /-- A keyword; `escaped` if it is spelled with escapes. -/
  | keyword (word : Keyword) (escaped : Bool)
  /-- A name with a number sign in front, given without it. -/
  | privateName (text : Text)
  | punct (p : Punct)
  | number (value : Double)
  | bigint (raw : Text)
  | string (value : StringValue)
  /-- A part of a template; `opens` if it begins the literal, `more` if a substitution follows. -/
  | template (opens more : Bool) (chunk : TemplateChunk)
  | regex (pattern flags : Text)
  /-- The end of the text. -/
  | stop
  /-- A malformed lexical element. -/
  | invalid
  deriving DecidableEq

inductive Gap
  | nothing
  | blank
  | newline
  deriving DecidableEq

structure Token where
  kind : TokenKind
  start : Nat
  stop : Nat
  gap : Gap
  /-- The comments that lead the token. -/
  comments : List Comment
  /-- Whether a comment before the token says that the next call has no effect. -/
  pureMark : Bool
  /-- Whether a comment before the token says that calls of the next function have no effect. -/
  effectFreeMark : Bool
  /-- For each open template substitution, innermost first, the braces open in it. -/
  nesting : List Nat
  deriving DecidableEq

end Syntax

end NgFile
