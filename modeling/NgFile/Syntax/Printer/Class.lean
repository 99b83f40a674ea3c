import NgFile.Syntax.Printer.Function

/-!
# Printed classes and object types

The members of classes, interfaces and object types.
-/

namespace NgFile

namespace Syntax

namespace Printer

open Writing

def methodModifiers (ms : Modifiers) : Writing :=
  accessibility ms.accessibility ++ word ms.isAbstract "abstract" ++ word ms.isStatic "static"

def fieldModifiers (ms : Modifiers) : Writing :=
  word ms.isDeclare "declare" ++ accessibility ms.accessibility ++
    word ms.isAbstract "abstract" ++ word ms.isStatic "static" ++ word ms.isReadonly "readonly"

def accessorModifiers (ms : Modifiers) : Writing :=
  word ms.isAbstract "abstract" ++ accessibility ms.accessibility ++ word ms.isStatic "static" ++
    "accessor "

def indexer (self : Printers) (ms : Modifiers) (name : Text) (keyType type : Ty) : Writing :=
  word ms.isReadonly "readonly" ++ "[" ++ name ++ ": " ++ self (.type keyType) ++ "]: " ++
    self (.type type)

def classMember (self : Printers) (around : Surroundings) : Member → Writing
  | .field _ ds ms k optional _ type value =>
      let head : Writing :=
        if ms.isAccessor then accessorModifiers ms ++ key self k
        else fieldModifiers ms ++ key self k ++ when optional "?"
      decorators self ds ++ head ++ typed self type ++ valued self .plain value ++ ";"
  | .method _ ds ms kind k optional f =>
      decorators self ds ++ methodModifiers ms ++ methodText self around kind k optional f
  | .staticBlock _ body _ => "static " ++ braced body.isEmpty (statements self around body)
  | .indexer _ ms name keyType type => indexer self ms name keyType type ++ ";"
  | .signature _ _ _ => nothing

def memberLoc : Member → Loc
  | .field loc _ _ _ _ _ _ _ | .method loc _ _ _ _ _ _ | .staticBlock loc _ _
  | .indexer loc _ _ _ _ | .signature loc _ _ => loc

def memberLines (text : Member → Writing) (members : List Member) : Writing :=
  braced members.isEmpty
    (concat (members.map fun m => lead (memberLoc m) ++ text m ++ newline))

/-- A class with its keywords; one without a name cannot have type parameters. -/
def classText (self : Printers) (around : Surroundings) : Class → Writing
  | .mk ds isAbstract isDeclare name params base baseTypeArgs implemented members =>
      let name : Writing := match name with
        | some name => " " ++ name.text ++ typeParams self params
        | none => nothing
      let base : Writing := match base with
        | some e => " extends " ++ exprAt self .trailing e ++ typeArgs self baseTypeArgs
        | none => nothing
      let implemented : Writing :=
        when (!implemented.isEmpty)
          (" implements " ++ listed (implemented.map fun t => self (.type t)))
      decorators self ds ++ word isDeclare "declare" ++ word isAbstract "abstract" ++
        "class" ++ name ++ base ++ implemented ++ " " ++
        memberLines (classMember self around.allowingCall) members

def typeMember (self : Printers) : Member → Writing
  | .field _ _ ms k optional _ type _ =>
      word ms.isReadonly "readonly" ++ key self k ++ when optional "?" ++ typed self type
  | .method _ _ _ kind k optional f =>
      accessorWord kind ++ key self k ++ when optional "?" ++ signature self .plain f
  | .indexer _ ms name keyType type => indexer self ms name keyType type
  | .signature _ construct f => word construct "new" ++ signature self .plain f
  | .staticBlock _ _ _ => nothing

def typeMembers (self : Printers) (members : List Member) : Writing :=
  memberLines (fun m => typeMember self m ++ ";") members

end Printer

end Syntax

end NgFile
