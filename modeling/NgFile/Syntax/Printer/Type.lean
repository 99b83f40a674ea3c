import NgFile.Syntax.Printer.Class

/-!
# Printed types
-/

namespace NgFile

namespace Syntax

namespace Printer

open Writing

def functionType (self : Printers) (f : Func) : Writing :=
  typeParams self f.typeParams ++ params self .plain f.params ++ " => " ++
    match f.returnType with
    | some t => self (.type t)
    | none => nothing

def mappedReadonly : MappedModifier → Text
  | .absent => []
  | .present => "readonly "
  | .added => "+readonly "
  | .removed => "-readonly "

def mappedOptional : MappedModifier → Text
  | .absent => []
  | .present => "?"
  | .added => "+?"
  | .removed => "-?"

def dotted (self : Printers) (name : List Text) (args : List Ty) : Writing :=
  Text.joinWith "." name ++ typeArgs self args

def importType (self : Printers) (source : Ty) (options : Option Expr) (name : List Text)
    (args : List Ty) : Writing :=
  "import(" ++ self (.type source) ++ preceded ", " (options.map (expr self)) ++ ")" ++
    name.flatMap ('.' :: ·) ++ typeArgs self args

def type (self : Printers) (t : Ty) : Writing :=
  let inner (t : Ty) : Writing := self (.type t)
  let all (separator : Text) (ts : List Ty) : Writing := joined separator (ts.map inner)
  match t with
  | .keyword word => word
  | .thisType => "this"
  | .reference name args => dotted self name args
  | .query name args => "typeof " ++ dotted self name args
  | .literal e => expr self e
  | .template chunks types => template chunks (types.map inner)
  | .array element => inner element ++ "[]"
  | .tuple elements => "[" ++ all ", " elements ++ "]"
  | .named name optional type => name ++ when optional "?" ++ ": " ++ inner type
  | .optional type => inner type ++ "?"
  | .marked isBang leading type =>
      let mark : Writing := if isBang then "!" else "?"
      if leading then mark ++ inner type else inner type ++ mark
  | .anything => "?"
  | .rest type => "..." ++ inner type
  | .union types => all " | " types
  | .intersection types => all " & " types
  | .function f => functionType self f
  | .construct isAbstract f => word isAbstract "abstract" ++ "new " ++ functionType self f
  | .conditional check bound yes no =>
      inner check ++ " extends " ++ inner bound ++ " ? " ++ inner yes ++ " : " ++ inner no
  | .infer param => "infer " ++ inner param
  | .param isConst isIn isOut name bound value =>
      word isConst "const" ++ word isIn "in" ++ word isOut "out" ++ name.text ++
        preceded " extends " (bound.map inner) ++ preceded " = " (value.map inner)
  | .paren t => "(" ++ inner t ++ ")"
  | .operator word operand => word ++ " " ++ inner operand
  | .indexed object key => inner object ++ "[" ++ inner key ++ "]"
  | .mapped key constraint nameType readonly optional type =>
      "\x7b " ++ mappedReadonly readonly ++ "[" ++ key ++ " in " ++ inner constraint ++
        preceded " as " (nameType.map inner) ++ "]" ++ mappedOptional optional ++ " " ++
        typed self type ++ " \x7d"
  | .object members => typeMembers self members
  | .predicate asserts subject type =>
      word asserts "asserts" ++ subject ++ preceded " is " (type.map inner)
  | .importType source options name args => importType self source options name args
  | .typeOfImport source options name args =>
      "typeof " ++ importType self source options name args

end Printer

end Syntax

end NgFile
